import DomainKmip.GenerateSafety
import DomainKmip.KeyLoading
import DomainKmip.Operations

namespace DomainKmip.Crashes

open DomainKmip.Library.BigEndian
open DomainKmip.Library.RustResult
open DomainKmip.Library.Interaction
open DomainKmip.Domain
open DomainKmip.Kmip
open DomainKmip.Dependencies
open DomainKmip.Errors
open DomainKmip.Algorithms
open DomainKmip.Client
open DomainKmip.PublicKeys
open DomainKmip.KeyPairs
open DomainKmip.KeyUrls
open DomainKmip.SigningSafety
open DomainKmip.GenerateSafety (Exchange)
open DomainKmip.Generate
open DomainKmip.KeyLoading
open DomainKmip.Operations

section Rules

variable {ε ε' α β : Type} {crashes : Exchange → Prop} {t : List Exchange} {pool : ConnPool}

/-- The action panics in the runs that have one of the exchanges. -/
def PanicsOn (crashes : Exchange → Prop) (x : Action ε α) : Prop :=
  ∀ t o, x.program.Admits t o → (o = .panic ↔ ∃ e ∈ t, crashes e)

theorem panicsOn_lift {x : Outcome ε α} (hx : x ≠ .panic) : PanicsOn crashes (Action.lift x) := by
  intro t o h
  obtain ⟨rfl, rfl⟩ := Action.of_admits_lift h
  simp [hx]

theorem panicsOn_pure (a : α) : PanicsOn crashes (pure a : Action ε α) :=
  panicsOn_lift (x := .ok a) (by simp)

theorem PanicsOn.bind {x : Action ε α} {f : α → Action ε β} (hx : PanicsOn crashes x)
    (hf : ∀ a, PanicsOn crashes (f a)) : PanicsOn crashes (x >>= f) := by
  intro t o h
  obtain ⟨t₁, t₂, o₁, rfl, hfirst, hrest⟩ := Program.Admits.of_bind h
  have hpanics := hx t₁ o₁ hfirst
  cases o₁ with
  | ok a =>
      have hquiet : ¬ ∃ e ∈ t₁, crashes e := by simpa using hpanics
      rw [hf a t₂ o hrest]
      constructor
      · rintro ⟨e, he, hcrashes⟩
        exact ⟨e, List.mem_append_right _ he, hcrashes⟩
      · rintro ⟨e, he, hcrashes⟩
        rcases List.mem_append.mp he with he | he
        · exact (hquiet ⟨e, he, hcrashes⟩).elim
        · exact ⟨e, he, hcrashes⟩
  | err err =>
      obtain ⟨rfl, rfl⟩ := Program.Admits.of_done hrest
      simpa using hpanics
  | panic =>
      obtain ⟨rfl, rfl⟩ := Program.Admits.of_done hrest
      simpa using hpanics

theorem PanicsOn.mapErr {x : Action ε α} (f : ε → ε') (hx : PanicsOn crashes x) :
    PanicsOn crashes (x.mapErr f) := by
  intro t o h
  obtain ⟨t₁, t₂, o₁, rfl, hfirst, hrest⟩ := Program.Admits.of_bind h
  obtain ⟨rfl, rfl⟩ := Program.Admits.of_done hrest
  simpa using hx t₁ o₁ hfirst

/-- Connections come and go without a panic. -/
theorem PanicsOn.withClient {x : Action ε α} (onErr : KmipConnError → ε)
    (hconnect : ∀ reply, ¬ crashes ⟨.connect pool, reply⟩)
    (hrelease : ∀ reply, ¬ crashes ⟨.release pool, reply⟩) (hx : PanicsOn crashes x) :
    PanicsOn crashes (Action.withClient pool onErr x) := by
  intro t o h
  rcases of_admits_bracket h with ⟨err, rfl, rfl⟩ | ⟨t', rfl, hbody⟩
  · simpa using hconnect _
  · rw [hx t' o hbody]
    simp [hconnect, hrelease]

theorem PanicsOn.request {call : Call} {x : Action ε (Reply call)}
    {f : Reply call → Action ε β}
    (hx : x.program = .call call fun reply => .done (.ok reply))
    (hquiet : ∀ reply, ¬ crashes ⟨call, reply⟩) (hf : ∀ reply, PanicsOn crashes (f reply)) :
    PanicsOn crashes (x >>= f) := by
  refine PanicsOn.bind ?_ hf
  intro t o h
  rw [hx] at h
  obtain ⟨reply, rfl, rfl⟩ := Program.Admits.of_request h
  simpa using hquiet reply

/-- A request at which it is decided. -/
theorem PanicsOn.answer {call : Call} {x : Action ε (Reply call)}
    {g : Reply call → Outcome ε α}
    (hx : x.program = .call call fun reply => .done (.ok reply))
    (hg : ∀ reply, g reply = .panic ↔ crashes ⟨call, reply⟩) :
    PanicsOn crashes (x >>= fun reply => Action.lift (g reply)) := by
  intro t o h
  obtain ⟨t₁, t₂, a, rfl, hrequest, hlift⟩ := Program.Admits.of_bind h
  rw [hx] at hrequest
  obtain ⟨reply, rfl, rfl⟩ := Program.Admits.of_request hrequest
  obtain ⟨rfl, rfl⟩ := Action.of_admits_lift hlift
  simpa using hg reply

end Rules

/-- The reply is an object of the kind. -/
def Gets (p : ManagedObject → Prop) : Exchange → Prop
  | ⟨.getKey .., .ok object⟩ => p object
  | _ => False

section Loading

variable (crates : Crates) (algorithm : SecurityAlgorithm) (pool : ConnPool)

theorem forKeyIdAndDnssecAlgorithm_panicsOn (publicKeyId : String) :
    PanicsOn (Gets (CrashesParser crates algorithm))
      (forKeyIdAndDnssecAlgorithm crates publicKeyId algorithm pool) := by
  simp only [forKeyIdAndDnssecAlgorithm, Action.lift_bind_lift]
  refine PanicsOn.withClient _ (fun _ => id) (fun _ => id) (PanicsOn.answer rfl fun reply => ?_)
  cases reply with
  | error err => simp [Gets]
  | ok object => exact ofManagedObject_eq_panic_iff crates

/-- Parsing the object and building the record panic on the fatal objects. -/
theorem record_eq_panic_iff {object : ManagedObject} {flags : UInt16}
    (f : PublicKeyError → GenerateError) (keyPair : Dnskey → KeyPair) :
    ((ofManagedObject crates algorithm object).mapErr f >>= fun key =>
      (dnskey key flags : Outcome GenerateError Dnskey) >>= fun record =>
        .ok (keyPair record)) = .panic ↔ Fatal crates algorithm object := by
  simp only [fatal_iff, Outcome.bind_eq_panic_iff, Outcome.mapErr_eq_panic_iff,
    Outcome.mapErr_eq_ok_iff, ofManagedObject_eq_panic_iff, ofManagedObject_eq_ok_iff,
    dnskey_eq_panic_iff, reduceCtorEq, and_false, exists_false, or_false]
  constructor
  · rintro (hcrashes | ⟨_, ⟨publicKey, holds, rfl⟩, hlong⟩)
    · exact Or.inl hcrashes
    · exact Or.inr ⟨publicKey, holds, hlong⟩
  · rintro (hcrashes | ⟨publicKey, holds, hlong⟩)
    · exact Or.inl hcrashes
    · exact Or.inr ⟨_, ⟨publicKey, holds, rfl⟩, hlong⟩

theorem fromMetadata_panicsOn (flags : UInt16) (privateKeyId publicKeyId : String) :
    PanicsOn (Gets (Fatal crates algorithm))
      (fromMetadata crates algorithm flags privateKeyId publicKeyId pool) := by
  intro t o h
  obtain ⟨t₁, t₂, o₁, rfl, hmapped, hrest⟩ := Program.Admits.of_bind h
  obtain ⟨t₃, t₄, o₂, rfl, hfetch, hdone⟩ := Program.Admits.of_bind hmapped
  obtain ⟨rfl, rfl⟩ := Program.Admits.of_done hdone
  -- What follows the session is decided by what it ended with.
  obtain ⟨rfl, rfl⟩ : t₂ = [] ∧ (o₂.mapErr (fun err => .Kmip err.display) >>= fun key =>
      dnskey key flags >>= fun record => .ok
        (KeyPair.mk algorithm privateKeyId publicKeyId pool record flags)) = o := by
    cases o₂ with
    | ok key =>
        refine Action.of_admits_lift ?_
        rw [Outcome.mapErr, Outcome.ok_bind, ← Action.lift_bind_lift]
        exact hrest
    | err err => exact Program.Admits.of_done hrest
    | panic => exact Program.Admits.of_done hrest
  simp only [forKeyIdAndDnssecAlgorithm, Action.lift_bind_lift] at hfetch
  rcases Action.of_admits_session rfl hfetch with ⟨err, rfl, rfl⟩ | ⟨reply, rfl, rfl⟩
  · simp [Gets, Outcome.mapErr]
  · cases reply with
    | error err => simp [Gets, Outcome.mapErr]
    | ok object =>
        simp only [Outcome.ofExcept_ok, Outcome.ok_bind, record_eq_panic_iff]
        simp [Gets]

/-- Loading a key pair from its URLs panics as loading it from its metadata does. -/
theorem fromUrls_panicsOn (privKeyUrl pubKeyUrl : KeyUrl) :
    PanicsOn (Gets (Fatal crates privKeyUrl.algorithm))
      (fromUrls crates privKeyUrl pubKeyUrl pool) := by
  rw [fromUrls]
  split_ifs
  · exact panicsOn_lift (by simp)
  · exact panicsOn_lift (by simp)
  · exact panicsOn_lift (by simp)
  · exact panicsOn_lift (by simp)
  · exact fromMetadata_panicsOn crates _ pool _ _ _

end Loading

section Generating

variable {crates : Crates} {p : ManagedObject → Prop} {pool : ConnPool}

theorem lengthAttributes_ne_panic {alg : AlgorithmInfo} {bits : Option UInt32}
    (h : ∀ len, bits.or alg.kmipCryptoFixedLen = some len →
      outsideRange alg.lenRange len = false → len.toNat < 2 ^ 31) :
    lengthAttributes alg bits ≠ .panic := by
  rw [lengthAttributes]
  split
  · rename_i len hlen
    split
    · simp
    · rename_i hin
      have hsmall := h len hlen (Bool.eq_false_iff.mpr hin)
      rw [tryIntoI32, if_pos hsmall]
      simp
  · simp

/-- The lengths that pass the range of their algorithm are far below `i32::MAX`. -/
theorem lengths_fit (params : GenerateParams) :
    lengthAttributes (selectAlgorithm params).1 (selectAlgorithm params).2 ≠ .panic := by
  have hrange : ∀ {min len : UInt32}, outsideRange (some (min, 4096)) len = false →
      len.toNat < 2 ^ 31 := by
    intro min len hin
    have hle : len ≤ 4096 := by
      simp only [outsideRange, decide_eq_false_iff_not, not_not] at hin
      exact hin.2
    exact lt_of_le_of_lt (UInt32.le_iff_toNat_le.mp hle) (by decide)
  refine lengthAttributes_ne_panic fun len hlen hin => ?_
  cases params with
  | RsaSha256 bits => exact hrange hin
  | RsaSha512 bits => exact hrange hin
  | _ =>
      obtain rfl := Option.some.inj hlen
      decide

theorem sendRequest_panicsOn (request : RequestPayload) :
    PanicsOn (Gets p) (sendRequest crates pool request) :=
  PanicsOn.request rfl (fun _ => id) fun reply => panicsOn_lift (by cases reply <;> simp)

theorem requireEdxxxSupport_panicsOn (params : GenerateParams) :
    PanicsOn (Gets p) (requireEdxxxSupport crates params pool) := by
  rw [requireEdxxxSupport]
  split
  · refine PanicsOn.request rfl (fun _ => id) fun reply =>
      PanicsOn.bind (panicsOn_lift (by cases reply <;> simp)) fun response => ?_
    split
    · exact panicsOn_pure ()
    · exact panicsOn_lift (by simp)
  · exact panicsOn_pure ()

theorem createKeyPair_panicsOn (alg : AlgorithmInfo)
    (commonAttrs privateKeyAttrs publicKeyAttrs : List Attribute) :
    PanicsOn (Gets p)
      (createKeyPair crates alg commonAttrs privateKeyAttrs publicKeyAttrs pool) := by
  rw [createKeyPair]
  refine PanicsOn.bind (sendRequest_panicsOn _) fun response => ?_
  split
  · exact sendRequest_panicsOn _
  · exact panicsOn_pure _

theorem requestKeyPair_panicsOn (publicKeyName privateKeyName : String)
    (params : GenerateParams) :
    PanicsOn (Gets p) (requestKeyPair crates publicKeyName privateKeyName params pool) := by
  rw [requestKeyPair]
  refine PanicsOn.bind (requireEdxxxSupport_panicsOn params) fun _ =>
    PanicsOn.bind (panicsOn_lift (lengths_fit params)) fun _ =>
      PanicsOn.bind (createKeyPair_panicsOn _ _ _ _) fun response =>
        panicsOn_lift (by cases response <;> simp)

theorem activate_panicsOn (privateKeyId : UniqueIdentifier) :
    PanicsOn (Gets p) (activate crates privateKeyId pool) := by
  rw [activate]
  refine PanicsOn.bind (sendRequest_panicsOn _) fun response =>
    PanicsOn.bind (panicsOn_lift (by cases response <;> simp)) fun payload => ?_
  split
  · exact panicsOn_pure ()
  · exact panicsOn_lift (by simp)

theorem generate_panicsOn (publicKeyName privateKeyName : String) (params : GenerateParams)
    (flags : UInt16) :
    PanicsOn (Gets (Fatal crates params.algorithm))
      (generate crates publicKeyName privateKeyName params flags pool) := by
  rw [generate]
  refine PanicsOn.bind (PanicsOn.withClient _ (fun _ => id) (fun _ => id)
    (requestKeyPair_panicsOn _ _ params)) fun response => ?_
  refine PanicsOn.bind (panicsOn_lift ?_) fun payload => ?_
  · cases response <;> simp [takeKeyPairIds]
  · rw [locateAndActivate]
    have hloaded := fromMetadata_panicsOn crates params.algorithm pool flags
      payload.privateKeyUniqueIdentifier payload.publicKeyUniqueIdentifier
    exact PanicsOn.bind (PanicsOn.mapErr _ hloaded) fun keyPair =>
      PanicsOn.bind (PanicsOn.withClient _ (fun _ => id) (fun _ => id) (activate_panicsOn _))
        fun _ => panicsOn_pure keyPair

theorem destroy_panicsOn (keyId : String) :
    PanicsOn (fun _ => False) (destroy crates keyId pool) := by
  rw [destroy]
  refine PanicsOn.withClient _ (fun _ => id) (fun _ => id) ?_
  exact PanicsOn.request rfl (fun _ => id) fun reply =>
    PanicsOn.bind (panicsOn_lift (by cases reply <;> simp)) fun _ =>
      PanicsOn.request rfl (fun _ => id) fun reply => panicsOn_lift (by cases reply <;> simp)

end Generating

/-- The reply carries a payload, and not that of a Sign operation. -/
def Strays : Exchange → Prop
  | ⟨.doRequestPayload .., .ok (.ok payload)⟩ => ¬ IsSign payload
  | _ => False

/-- The items of the reply are signatures up to one that is no response to Sign. -/
def StraysInBatch (self : KeyPair) : Exchange → Prop
  | ⟨.doRequestBatch .., .ok items⟩ => ∃ before item after, items = before ++ item :: after ∧
      (∀ accepted ∈ before, Accepted self accepted) ∧ Malformed item
  | _ => False

section Signing

variable (self : KeyPair)

theorem signPre_ne_panic (data : Octets) : signPre self data ≠ .panic := by
  rw [signPre]
  split <;> simp

theorem signRaw_panicsOn (data : Octets) : PanicsOn Strays (signRaw self data) := by
  rw [signRaw]
  refine PanicsOn.bind (panicsOn_lift (signPre_ne_panic self data)) fun request =>
    PanicsOn.withClient _ (fun _ => id) (fun _ => id) ?_
  simp only [Action.lift_bind_lift]
  refine PanicsOn.answer rfl fun reply => ?_
  rcases reply with err | err | payload
  · simp [Strays]
  · simp [Strays]
  · exact signPost_eq_panic_iff

theorem submitBatch_panicsOn (queue : List BatchItem) :
    PanicsOn (StraysInBatch self) (submitBatch self queue) := by
  simp only [submitBatch, Action.lift_bind_lift]
  refine PanicsOn.answer rfl fun reply => ?_
  cases reply with
  | error err => simp [StraysInBatch]
  | ok items =>
      simp only [Outcome.ofExcept_ok, Outcome.ok_bind, Outcome.collect_eq_panic_iff,
        signBatchItem_eq_panic_iff, StraysInBatch, accepted_iff]

/-- A submission panics with its batch. -/
theorem signRawSubmitQueue_panics_iff {queue : SignQueue} {t : List Exchange}
    {result : Outcome SignError (List Signature) × SignQueue}
    (h : (signRawSubmitQueue self queue).Admits t result) :
    result.1 = .panic ↔ ∃ e ∈ t, StraysInBatch self e := by
  rcases of_admits_bracket h with ⟨err, rfl, rfl⟩ | ⟨t', rfl, hbody⟩
  · simp [StraysInBatch]
  · obtain ⟨t₁, t₂, outcome, rfl, hbatch, hdone⟩ := Program.Admits.of_bind hbody
    obtain ⟨rfl, rfl⟩ := Program.Admits.of_done hdone
    rw [submitBatch_panicsOn self queue.items t₁ outcome hbatch]
    simp [StraysInBatch]

end Signing

/-- The exchanges at which the operation panics. -/
def CrashedBy (crates : Crates) : ApiCall → Exchange → Prop
  | .generate _ _ params _ _ => Gets (Fatal crates params.algorithm)
  | .destroy .. => fun _ => False
  | .fromMetadata algorithm .. => Gets (Fatal crates algorithm)
  | .fromUrls privKeyUrl .. => Gets (Fatal crates privKeyUrl.algorithm)
  | .forKeyIdAndDnssecAlgorithm _ algorithm _ => Gets (CrashesParser crates algorithm)
  | .forKeyUrl publicKeyUrl _ => Gets (CrashesParser crates publicKeyUrl.algorithm)
  | .signRaw .. => Strays
  | .signRawSubmitQueue self _ => StraysInBatch self

def Panics : (operation : ApiCall) → operation.Result → Prop
  | .generate .., outcome => outcome = .panic
  | .destroy .., outcome => outcome = .panic
  | .fromMetadata .., outcome => outcome = .panic
  | .fromUrls .., outcome => outcome = .panic
  | .forKeyIdAndDnssecAlgorithm .., outcome => outcome = .panic
  | .forKeyUrl .., outcome => outcome = .panic
  | .signRaw .., outcome => outcome = .panic
  | .signRawSubmitQueue .., result => result.1 = .panic

/-- An operation panics in the runs in which one of the replies crashes it, and in no
others. -/
theorem panics_iff (crates : Crates) {operation : ApiCall} {t : List Exchange}
    {result : operation.Result} (h : (operation.program crates).Admits t result) :
    Panics operation result ↔ ∃ e ∈ t, CrashedBy crates operation e := by
  cases operation with
  | generate publicKeyName privateKeyName params flags pool =>
      exact generate_panicsOn _ _ params flags t result h
  | destroy keyId pool => exact destroy_panicsOn keyId t result h
  | fromMetadata algorithm flags privateKeyId publicKeyId pool =>
      exact fromMetadata_panicsOn crates algorithm pool flags privateKeyId publicKeyId t result h
  | fromUrls privKeyUrl pubKeyUrl pool =>
      exact fromUrls_panicsOn crates pool privKeyUrl pubKeyUrl t result h
  | forKeyIdAndDnssecAlgorithm publicKeyId algorithm pool =>
      exact forKeyIdAndDnssecAlgorithm_panicsOn crates algorithm pool publicKeyId t result h
  | forKeyUrl publicKeyUrl pool =>
      exact forKeyIdAndDnssecAlgorithm_panicsOn crates publicKeyUrl.algorithm pool _ t result h
  | signRaw self data => exact signRaw_panicsOn self data t result h
  | signRawSubmitQueue self queue => exact signRawSubmitQueue_panics_iff self h

def strayKeyPair : KeyPair := sampleKeyPair .ED25519 samplePool

def strayQueue : SignQueue := (signRawEnqueue strayKeyPair [7] .new [1, 2, 3]).2

/-- What a batch is exchanged for at a server that leaves out the payload of its only
item. -/
def strayBatch : List Exchange :=
  ((ApiCall.signRawSubmitQueue strayKeyPair strayQueue).program sampleCrates).trace
    (fun s call => (strayReplies call, s)) ()

theorem stray_batch_crashes : strayQueue.items.length = 1 ∧
    ∃ e ∈ strayBatch, CrashedBy sampleCrates (.signRawSubmitQueue strayKeyPair strayQueue) e :=
  ⟨rfl, (panics_iff sampleCrates (Program.admits_trace _ ())).mp rfl⟩

end DomainKmip.Crashes
