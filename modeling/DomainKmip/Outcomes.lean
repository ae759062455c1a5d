import DomainKmip.Sessions

namespace DomainKmip.Outcomes

open DomainKmip.Library.RustResult
open DomainKmip.Library.Interaction
open DomainKmip.Domain
open DomainKmip.Kmip
open DomainKmip.Dependencies
open DomainKmip.Errors
open DomainKmip.Algorithms
open DomainKmip.Client
open DomainKmip.KeyPairs
open DomainKmip.SigningSafety
open DomainKmip.Generate
open DomainKmip.GenerateSafety
open DomainKmip.Sessions

def acknowledges : Exchange → Bool
  | ⟨.doRequestPayload _ (.Activate (some _)), .ok (.ok (.Activate _))⟩ => true
  | _ => false

theorem any_acknowledges_iff {h : List Exchange} :
    h.any acknowledges = true ↔ ∃ id, Acknowledged h id := by
  rw [List.any_eq_true]
  constructor
  · rintro ⟨e, he, hacknowledges⟩
    rw [acknowledges.eq_def] at hacknowledges
    split at hacknowledges
    · exact ⟨_, _, _, he⟩
    · exact Bool.noConfusion hacknowledges
  · rintro ⟨id, pool, id', he⟩
    exact ⟨_, he, rfl⟩

/-- Nothing has been activated yet. -/
def Silent (h : List Exchange) : Prop := h.any acknowledges = false

theorem any_append_singleton {h : List Exchange} {e : Exchange} (he : acknowledges e = false) :
    (h ++ [e]).any acknowledges = h.any acknowledges := by
  simp [he]

theorem Silent.append {h : List Exchange} (hsilent : Silent h) {e : Exchange}
    (he : acknowledges e = false) : Silent (h ++ [e]) :=
  (any_append_singleton he).trans hsilent

theorem permitted_of_silent {call : Call} (hcall : ∀ reply, acknowledges ⟨call, reply⟩ = false) :
    Permitted (fun _ _ => True) Silent call :=
  fun _ hsilent => ⟨trivial, fun reply => hsilent.append (hcall reply)⟩

theorem opens_silent (pool : ConnPool) : Opens (fun _ _ => True) Silent Silent pool where
  connect _ _ := trivial
  connected _ hsilent := hsilent.append rfl
  refused _ _ hsilent := hsilent.append rfl
  release _ _ := trivial
  released _ hsilent := hsilent.append rfl

section Success

variable {ε α β : Type} {crates : Crates} {pool : ConnPool}

/-- The action returns `Ok` where an activation is acknowledged, and only there. -/
def Tells (x : Action ε α) : Prop :=
  ∀ h, Silent h → x.Meets history (fun _ _ => True)
    (fun o h' => (∃ a, o = .ok a) ↔ h'.any acknowledges = true) h

theorem tells_bind {x : Action ε β} {f : β → Action ε α}
    (hx : Preserves (fun _ _ => True) Silent x.program) (hf : ∀ b, Tells (f b)) :
    Tells (x >>= f) := by
  intro h hsilent
  apply Action.meets_bind.mpr
  apply Action.Meets.mono (hx h hsilent)
  rintro (b | e | _) h' hsilent'
  · exact hf b h' hsilent'
  · simpa [Action.andThen, Silent] using hsilent'
  · simpa [Action.andThen, Silent] using hsilent'

theorem Tells.bind_pure {x : Action ε β} (hx : Tells x) (a : α) :
    Tells (x >>= fun _ => pure a) := by
  intro h hsilent
  apply Action.meets_bind.mpr
  apply Action.Meets.mono (hx h hsilent)
  rintro (b | e | _) h' htells
  · simpa [Action.andThen] using htells
  · simpa [Action.andThen] using htells
  · simpa [Action.andThen] using htells

theorem Tells.withClient {x : Action ε α} (onErr : KmipConnError → ε) (hx : Tells x) :
    Tells (Action.withClient pool onErr x) := by
  intro h hsilent
  refine Action.meets_withClient.mpr ⟨trivial, ?_, ?_⟩
  · rintro err _ rfl
    have hrefused := hsilent.append (e := ⟨.connect pool, .error err⟩) rfl
    simpa [Silent] using hrefused
  · rintro _ rfl
    apply Action.Meets.mono (hx _ (hsilent.append rfl))
    rintro o h' htells
    refine ⟨trivial, ?_⟩
    rintro _ rfl
    rwa [any_append_singleton rfl]

theorem activate_tells (privateKeyId : UniqueIdentifier) :
    Tells (activate crates privateKeyId pool) := by
  intro h hsilent
  have hany : ∀ e, (h ++ [e]).any acknowledges = acknowledges e := by
    intro e
    have hsilent : h.any acknowledges = false := hsilent
    rw [List.any_append, hsilent, Bool.false_or, List.any_cons, List.any_nil, Bool.or_false]
  have hrefused : ∀ (err : GenerateError) {e : Exchange}, acknowledges e = false →
      ((∃ a : Unit, Outcome.err err = .ok a) ↔ (h ++ [e]).any acknowledges = true) := by
    intro err e he
    rw [hany, he]
    simp
  rw [activate, sendRequest]
  refine Action.meets_bind.mpr (Action.meets_bind.mpr (Action.meets_doRequestPayload.mpr
    ⟨trivial, ?_⟩))
  rintro (err | err | payload) _ rfl
  · exact hrefused _ rfl
  · exact hrefused _ rfl
  · cases payload with
    | Activate id => exact ⟨fun _ => hany _, fun _ => ⟨(), rfl⟩⟩
    | _ => exact hrefused _ rfl

theorem generate_tells (publicKeyName privateKeyName : String) (params : GenerateParams)
    (flags : UInt16) :
    Tells (generate crates publicKeyName privateKeyName params flags pool) := by
  have hopens := opens_silent pool
  have hget : ∀ id, Permitted (fun _ _ => True) Silent (.getKey pool id) :=
    fun id => permitted_of_silent fun _ => rfl
  have hrequest : Preserves (fun _ _ => True) Silent
      (requestKeyPair crates publicKeyName privateKeyName params pool).program :=
    preserves_requestKeyPair publicKeyName privateKeyName params
      (permitted_of_silent fun _ => rfl) fun _ _ _ => permitted_of_silent fun _ => rfl
  rw [generate]
  refine tells_bind (preserves_withClient hopens hrequest) fun response =>
    tells_bind (preserves_lift _) fun payload => ?_
  rw [locateAndActivate]
  refine tells_bind (preserves_mapErr (preserves_fromMetadata hopens _ _ _ (hget _)))
    fun keyPair => ?_
  exact ((activate_tells _).withClient _).bind_pure keyPair

end Success

/-- What is exchanged where a kind of key is refused: nothing but whether the server knows
it. -/
inductive Refusal (params : GenerateParams) (pool : ConnPool) : List Exchange → Prop
  | length (hlength : ¬ LengthPermitted params) :
      Refusal params pool [⟨.connect pool, .ok ()⟩, ⟨.release pool, ()⟩]
  | support (hneeds : NeedsEdxxx params) (response : QueryResponsePayload)
      (hsupport : kmip1xEdxxxSupported response = false) :
      Refusal params pool
        [⟨.connect pool, .ok ()⟩, ⟨.query pool, .ok response⟩, ⟨.release pool, ()⟩]

section Refusals

variable {α β : Type} {crates : Crates} {pool : ConnPool} {params : GenerateParams}
  {t : List Exchange}

/-- The action blames nothing on the algorithm. -/
def Accepts (x : Action GenerateError α) : Prop :=
  ∀ t, ¬ x.program.Admits t (.err .UnsupportedAlgorithm)

theorem accepts_lift {x : Outcome GenerateError α} (hx : x ≠ .err .UnsupportedAlgorithm) :
    Accepts (Action.lift x) :=
  fun _ h => hx (Action.of_admits_lift h).2

theorem Accepts.bind {x : Action GenerateError β} {f : β → Action GenerateError α}
    (hx : Accepts x) (hf : ∀ b, Accepts (f b)) : Accepts (x >>= f) := by
  intro t h
  obtain ⟨t₁, t₂, b | e | _, rfl, hfirst, hrest⟩ := Program.Admits.of_bind h
  · exact hf b t₂ hrest
  · obtain ⟨_, heq⟩ := Program.Admits.of_done hrest
    rw [Outcome.err.inj heq] at hfirst
    exact hx t₁ hfirst
  · obtain ⟨_, heq⟩ := Program.Admits.of_done hrest
    simp at heq

theorem accepts_mapErr {ε : Type} {x : Action ε α} {f : ε → GenerateError}
    (hf : ∀ e, f e ≠ .UnsupportedAlgorithm) : Accepts (x.mapErr f) := by
  intro t h
  obtain ⟨t₁, t₂, o, rfl, _, hdone⟩ := Program.Admits.of_bind h
  obtain ⟨_, heq⟩ := Program.Admits.of_done hdone
  cases o with
  | err e => exact hf e (Outcome.err.inj heq)
  | ok a => simp [Outcome.mapErr] at heq
  | panic => simp [Outcome.mapErr] at heq

theorem Accepts.withClient {x : Action GenerateError α} {onErr : KmipConnError → GenerateError}
    (honErr : ∀ err, onErr err ≠ .UnsupportedAlgorithm) (hx : Accepts x) :
    Accepts (Action.withClient pool onErr x) := by
  intro t h
  rcases of_admits_bracket h with ⟨err, _, heq⟩ | ⟨t', _, hbody⟩
  · exact honErr err (Outcome.err.inj heq)
  · exact hx t' hbody

theorem accepts_request {call : Call} {x : Action GenerateError (Reply call)}
    (hx : x.program = .call call fun reply => .done (.ok reply)) : Accepts x := by
  intro t h
  rw [hx] at h
  obtain ⟨reply, _, heq⟩ := Program.Admits.of_request h
  simp at heq

theorem ofExcept_netError_ne {ρ : Type} (reply : Except NetError ρ) :
    (Outcome.ofExcept (GenerateError.ofNetError crates) reply) ≠ .err .UnsupportedAlgorithm := by
  cases reply <;> simp [GenerateError.ofNetError]

theorem sendRequest_accepts (request : RequestPayload) :
    Accepts (sendRequest crates pool request) :=
  (accepts_request rfl).bind fun reply => accepts_lift (ofExcept_netError_ne reply)

theorem createKeyPair_accepts (alg : AlgorithmInfo)
    (commonAttrs privateKeyAttrs publicKeyAttrs : List Attribute) :
    Accepts (createKeyPair crates alg commonAttrs privateKeyAttrs publicKeyAttrs pool) := by
  refine (sendRequest_accepts _).bind fun response => ?_
  split
  · exact sendRequest_accepts _
  · exact accepts_lift (by simp)

theorem activate_accepts (privateKeyId : UniqueIdentifier) :
    Accepts (activate crates privateKeyId pool) := by
  refine (sendRequest_accepts _).bind fun response =>
    (accepts_lift (ofExcept_netError_ne response)).bind fun payload => ?_
  cases payload <;> exact accepts_lift (by simp)

theorem locateAndActivate_accepts (algorithm : SecurityAlgorithm) (flags : UInt16)
    (payload : CreateKeyPairResponsePayload) :
    Accepts (locateAndActivate crates algorithm flags pool payload) :=
  (accepts_mapErr fun _ => by simp).bind fun _ =>
    ((activate_accepts _).withClient fun _ => by simp).bind fun _ => accepts_lift (by simp)

theorem lengthAttributes_eq_err_iff_of_range (alg : AlgorithmInfo) (bits : UInt32)
    {min max : UInt32} (hrange : alg.lenRange = some (min, max)) :
    lengthAttributes alg (some bits) = .err .UnsupportedAlgorithm ↔
      ¬ (min ≤ bits ∧ bits ≤ max) := by
  rw [lengthAttributes, Option.some_or]
  simp only [outsideRange, hrange]
  by_cases hin : min ≤ bits ∧ bits ≤ max
  · cases hlen : tryIntoI32 bits <;> simp [hin]
  · simp [hin]

theorem lengthAttributes_eq_err_iff :
    lengthAttributes (selectAlgorithm params).1 (selectAlgorithm params).2 =
      .err .UnsupportedAlgorithm ↔ ¬ LengthPermitted params := by
  cases params with
  | RsaSha256 bits => exact lengthAttributes_eq_err_iff_of_range ALG_RSASHA256 bits rfl
  | RsaSha512 bits => exact lengthAttributes_eq_err_iff_of_range ALG_RSASHA512 bits rfl
  | _ =>
      constructor
      · intro h
        change Outcome.ok _ = Outcome.err _ at h
        simp at h
      · intro h
        exact (h trivial).elim

theorem needsEdxxx_of_isEdwards (h : isEdwards params = true) : NeedsEdxxx params := by
  cases params with
  | Ed25519 => exact Or.inl rfl
  | Ed448 => exact Or.inr rfl
  | _ => exact Bool.noConfusion h

theorem isEdwards_of_needsEdxxx (h : NeedsEdxxx params) : isEdwards params = true := by
  rcases h with rfl | rfl
  · rfl
  · rfl

/-- Only the length of RSA keys can be wrong. -/
theorem isEdwards_of_not_permitted (h : ¬ LengthPermitted params) : isEdwards params = false := by
  cases params with
  | RsaSha256 bits => rfl
  | RsaSha512 bits => rfl
  | _ => exact (h trivial).elim

/-- The server is asked once, and its answer decides. -/
theorem requireEdxxxSupport_program (h : isEdwards params = true) :
    (requireEdxxxSupport crates params pool).program = .call (.query pool) fun reply =>
      .done (do
        let response ← Outcome.ofExcept (GenerateError.ofNetError crates) reply
        if kmip1xEdxxxSupported response then .ok () else .err .UnsupportedAlgorithm) := by
  rw [requireEdxxxSupport, if_pos h]
  refine congrArg (Program.call _) (funext fun reply => ?_)
  cases reply with
  | error err => rfl
  | ok response =>
      change (if kmip1xEdxxxSupported response then pure () else
          Action.lift (.err GenerateError.UnsupportedAlgorithm)).program =
        .done (if kmip1xEdxxxSupported response then .ok () else
          .err GenerateError.UnsupportedAlgorithm)
      split
      · rfl
      · rfl

theorem refusal_of_requireEdxxxSupport
    (h : (requireEdxxxSupport crates params pool).program.Admits t
      (.err .UnsupportedAlgorithm)) :
    ∃ response, t = [⟨.query pool, .ok response⟩] ∧ NeedsEdxxx params ∧
      kmip1xEdxxxSupported response = false := by
  by_cases hedwards : isEdwards params = true
  · rw [requireEdxxxSupport_program hedwards] at h
    obtain ⟨err | response, rfl, hdecides⟩ := Program.Admits.of_request h
    · simp [GenerateError.ofNetError] at hdecides
    · refine ⟨response, rfl, needsEdxxx_of_isEdwards hedwards, ?_⟩
      cases hsupport : kmip1xEdxxxSupported response with
      | true => simp [hsupport] at hdecides
      | false => rfl
  · rw [requireEdxxxSupport, if_neg hedwards] at h
    exact absurd h (accepts_lift (x := .ok ()) (by simp) t)

theorem refusal_of_requestKeyPair {publicKeyName privateKeyName : String}
    (h : (requestKeyPair crates publicKeyName privateKeyName params pool).program.Admits t
      (.err .UnsupportedAlgorithm)) :
    Refusal params pool (⟨.connect pool, .ok ()⟩ :: (t ++ [⟨.release pool, ()⟩])) := by
  rw [requestKeyPair] at h
  obtain ⟨t₁, t₂, _ | e | _, rfl, hsupport, hrest⟩ := Program.Admits.of_bind h
  · obtain ⟨t₃, t₄, o, rfl, hlift, hcreate⟩ := Program.Admits.of_bind hrest
    obtain ⟨rfl, hlength⟩ := Action.of_admits_lift hlift
    cases o with
    | ok lengthAttrs =>
        exact absurd hcreate ((createKeyPair_accepts _ _ _ _).bind
          (fun response => accepts_lift (ofExcept_netError_ne response)) t₄)
    | err e =>
        obtain ⟨rfl, heq⟩ := Program.Admits.of_done hcreate
        rw [Outcome.err.inj heq] at hlength
        have hpermitted := lengthAttributes_eq_err_iff.mp hlength
        rw [requireEdxxxSupport, isEdwards_of_not_permitted hpermitted] at hsupport
        obtain ⟨rfl, _⟩ := Program.Admits.of_done hsupport
        exact .length hpermitted
    | panic =>
        obtain ⟨_, heq⟩ := Program.Admits.of_done hcreate
        simp at heq
  · obtain ⟨rfl, heq⟩ := Program.Admits.of_done hrest
    rw [Outcome.err.inj heq] at hsupport
    obtain ⟨response, rfl, hneeds, hunsupported⟩ := refusal_of_requireEdxxxSupport hsupport
    exact .support hneeds response hunsupported
  · obtain ⟨_, heq⟩ := Program.Admits.of_done hrest
    simp at heq

theorem refusal_of_generate {publicKeyName privateKeyName : String} {flags : UInt16}
    (h : (generate crates publicKeyName privateKeyName params flags pool).program.Admits t
      (.err .UnsupportedAlgorithm)) : Refusal params pool t := by
  obtain ⟨t₁, t₂, response | e | _, rfl, hfirst, hrest⟩ := Program.Admits.of_bind h
  · refine absurd hrest (Accepts.bind (accepts_lift ?_) (fun payload => ?_) t₂)
    · cases response <;> simp [takeKeyPairIds]
    · exact locateAndActivate_accepts _ _ payload
  · obtain ⟨rfl, heq⟩ := Program.Admits.of_done hrest
    obtain rfl := Outcome.err.inj heq
    rw [List.append_nil]
    rcases of_admits_bracket hfirst with ⟨err, _, heq⟩ | ⟨t', rfl, hbody⟩
    · simp at heq
    · exact refusal_of_requestKeyPair hbody
  · obtain ⟨_, heq⟩ := Program.Admits.of_done hrest
    simp at heq

theorem admits_of_requestKeyPair {publicKeyName privateKeyName : String} (flags : UInt16)
    (h : (requestKeyPair crates publicKeyName privateKeyName params pool).program.Admits t
      (.err .UnsupportedAlgorithm)) :
    (generate crates publicKeyName privateKeyName params flags pool).program.Admits
      (⟨.connect pool, .ok ()⟩ :: (t ++ [⟨.release pool, ()⟩])) (.err .UnsupportedAlgorithm) := by
  rw [← List.append_nil (_ :: _)]
  exact (admits_bracket h).bind (.done _)

theorem admits_of_refusal (publicKeyName privateKeyName : String) (flags : UInt16)
    (h : Refusal params pool t) :
    (generate crates publicKeyName privateKeyName params flags pool).program.Admits t
      (.err .UnsupportedAlgorithm) := by
  cases h with
  | length hlength =>
      refine admits_of_requestKeyPair flags (t := []) ?_
      have hsupport : (requireEdxxxSupport crates params pool).program.Admits [] (.ok ()) := by
        rw [requireEdxxxSupport, isEdwards_of_not_permitted hlength]
        exact .done _
      refine hsupport.bind ?_
      have hrefused : (Action.lift (lengthAttributes (selectAlgorithm params).1
          (selectAlgorithm params).2)).program.Admits [] (.err .UnsupportedAlgorithm) := by
        rw [lengthAttributes_eq_err_iff.mpr hlength]
        exact .done _
      exact hrefused.bind (.done _)
  | support hneeds response hsupport =>
      refine admits_of_requestKeyPair flags (t := [⟨.query pool, .ok response⟩]) ?_
      have hrefused : (requireEdxxxSupport crates params pool).program.Admits
          [⟨.query pool, .ok response⟩] (.err .UnsupportedAlgorithm) := by
        rw [requireEdxxxSupport_program (isEdwards_of_needsEdxxx hneeds)]
        apply Program.Admits.call
        simp only [Outcome.ofExcept_ok, Outcome.ok_bind, hsupport]
        exact .done _
      exact hrefused.bind (.done _)

end Refusals

/-- For every run of `generate`: it succeeds if and only if the server has acknowledged the
activation of a key, and it reports an unsupported algorithm if and only if the length is
not permitted or the server does not know the algorithm, and then nothing else was asked
for. -/
theorem generate_outcomes {crates : Crates} {publicKeyName privateKeyName : String}
    {params : GenerateParams} {flags : UInt16} {pool : ConnPool} {t : List Exchange}
    {outcome : Outcome GenerateError KeyPair}
    (h : (generate crates publicKeyName privateKeyName params flags pool).program.Admits t
      outcome) :
    ((∃ keyPair, outcome = .ok keyPair) ↔ ∃ id, Acknowledged t id) ∧
      (outcome = .err .UnsupportedAlgorithm ↔ Refusal params pool t) := by
  constructor
  · rw [← any_acknowledges_iff]
    exact (sound_of_meets_history
      (generate_tells publicKeyName privateKeyName params flags [] rfl) h).1
  · constructor
    · rintro rfl
      exact refusal_of_generate h
    · intro hrefusal
      exact h.unique (admits_of_refusal publicKeyName privateKeyName flags hrefusal)

/-- What `generate` exchanges with a server that does what it is asked for. -/
def willingTrace (params : GenerateParams) : List Exchange :=
  (generate sampleCrates "public" "private" params 257 samplePool).program.trace
    (fun s call => (willingReplies call, s)) ()

theorem outcomes_of_willing : (∃ id, Acknowledged (willingTrace .Ed25519) id) ∧
    Refusal (.RsaSha256 0) samplePool (willingTrace (.RsaSha256 0)) :=
  ⟨(generate_outcomes (Program.admits_trace _ ())).1.mp ⟨willingKeyPair, rfl⟩,
    (generate_outcomes (Program.admits_trace _ ())).2.mp rfl⟩

end DomainKmip.Outcomes
