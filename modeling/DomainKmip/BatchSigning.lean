import DomainKmip.Library.ListRelation
import DomainKmip.SigningSafety

namespace DomainKmip.BatchSigning

open DomainKmip.Library.BigEndian
open DomainKmip.Library.RustResult
open DomainKmip.Library.RustSlice
open DomainKmip.Library.ListRelation
open DomainKmip.Domain
open DomainKmip.Kmip
open DomainKmip.Algorithms
open DomainKmip.KeyPairs
open DomainKmip.SigningSafety

/-- What a server says to one Sign request: a failure, a success without payload, or
a payload. -/
abbrev SignAnswer := Except NetError (Option ResponsePayload)

/-- The answer carries a signature that the parser for `algorithm` accepts. -/
def Signs (algorithm : SecurityAlgorithm) (answer : SignAnswer) (sig : Signature) : Prop :=
  ∃ signed algInfo, answer = .ok (some (.Sign signed)) ∧
    getAlgInfo algorithm = some algInfo ∧ algInfo.sigParser signed.signatureData = .ok sig

theorem Signs.unique {algorithm : SecurityAlgorithm} {answer : SignAnswer}
    {sig sig' : Signature} (h : Signs algorithm answer sig) (h' : Signs algorithm answer sig') :
    sig = sig' := by
  obtain ⟨signed, algInfo, rfl, halg, hsig⟩ := h
  obtain ⟨signed', algInfo', heq, halg', hsig'⟩ := h'
  obtain rfl : signed = signed' := by simpa using heq
  obtain rfl : algInfo = algInfo' := by simpa [halg] using halg'
  simpa [hsig] using hsig'

theorem signBatchItem_map_eq_ok_iff {self : KeyPair} {answer : SignAnswer}
    {id : Option UniqueBatchItemID} {sig : Signature} :
    signBatchItem self (answer.map fun payload => ⟨id, payload⟩) = .ok sig ↔
      Signs self.algorithm answer sig := by
  rw [signBatchItem_eq_ok_iff]
  cases answer with
  | error err => simp [Signs, Except.map]
  | ok payload =>
      simp only [Signs, Except.map, Except.ok.injEq, BatchItemResponse.mk.injEq]
      constructor
      · rintro ⟨_, signed, algInfo, ⟨_, rfl⟩, h⟩
        exact ⟨signed, algInfo, rfl, h⟩
      · rintro ⟨signed, algInfo, rfl, h⟩
        exact ⟨id, signed, algInfo, ⟨rfl, rfl⟩, h⟩

structure SignItem where
  keyPair : KeyPair
  uuid : UniqueBatchItemID
  data : Octets

def enqueueAll (items : List SignItem) : SignQueue :=
  items.foldl (fun queue item => (signRawEnqueue item.keyPair item.uuid queue item.data).2)
    SignQueue.new

def Supported (self : KeyPair) : Prop := (getAlgInfo self.algorithm).isSome

instance (self : KeyPair) : Decidable (Supported self) := inferInstanceAs (Decidable (_ = true))

def signRequest (self : KeyPair) (algInfo : AlgorithmInfo) (data : Octets) : RequestPayload :=
  .Sign (some self.privateKeyId) (some (signParameters algInfo)) data

theorem signPre_of_algInfo {self : KeyPair} {algInfo : AlgorithmInfo}
    (h : getAlgInfo self.algorithm = some algInfo) (data : Octets) :
    signPre self data = .ok (signRequest self algInfo data) := by
  rw [signPre, h]
  rfl

def IsBatchItem (item : SignItem) (batchItem : BatchItem) : Prop :=
  batchItem.uniqueBatchItemId = some item.uuid ∧
    signPre item.keyPair item.data = .ok batchItem.payload

theorem enqueue_step (queue : SignQueue) {item : SignItem} (h : Supported item.keyPair) :
    ∃ batchItem, IsBatchItem item batchItem ∧
      (signRawEnqueue item.keyPair item.uuid queue item.data).2 =
        ⟨queue.items ++ [batchItem]⟩ := by
  obtain ⟨algInfo, halg⟩ := Option.isSome_iff_exists.mp h
  have hpre := signPre_of_algInfo halg item.data
  refine ⟨⟨(signRequest item.keyPair algInfo item.data).operation, some item.uuid, _⟩,
    ⟨rfl, hpre⟩, ?_⟩
  rw [signRawEnqueue, hpre]
  rfl

theorem enqueueAll_items {items : List SignItem}
    (h : ∀ item ∈ items, Supported item.keyPair) :
    List.Forall₂ IsBatchItem items (enqueueAll items).items := by
  suffices hfold : ∀ (queue : SignQueue) (before : List SignItem),
      List.Forall₂ IsBatchItem before queue.items →
      List.Forall₂ IsBatchItem (before ++ items)
        (items.foldl (fun queue item =>
          (signRawEnqueue item.keyPair item.uuid queue item.data).2) queue).items by
    simpa [enqueueAll] using hfold SignQueue.new [] .nil
  induction items with
  | nil =>
      intro queue before hbefore
      simpa using hbefore
  | cons item items ih =>
      intro queue before hbefore
      obtain ⟨batchItem, hitem, hqueue⟩ := enqueue_step queue (h item (by simp))
      have hnext := ih (fun item' hmem => h item' (by simp [hmem]))
        ⟨queue.items ++ [batchItem]⟩ (before ++ [item])
        (List.rel_append hbefore (.cons hitem .nil))
      simpa [List.foldl_cons, hqueue] using hnext

section PlainSigning

variable {Server : Type} (reach : ConnPool → Server)
  (answer : Server → UniqueIdentifier → CryptographicParameters → Octets → SignAnswer)

/-- A Sign request, alone or in a batch, is answered by the server that the pool
reaches. -/
def answerSign (pool : ConnPool) : RequestPayload → SignAnswer
  | .Sign (some id) (some parameters) data => answer (reach pool) id parameters data
  | _ => .error (.other "operation not supported")

/-- Replies of servers that answer each Sign request in the same way, whether it is
sent alone or in a batch. -/
def signServer : (call : Call) → Reply call
  | .connect _ => .ok ()
  | .release _ => ()
  | .query _ => .ok ⟨none⟩
  | .doRequestPayload pool request =>
      .ok (match answerSign reach answer pool request with
        | .ok (some payload) => .ok payload
        | .ok none => .error (.other "missing payload")
        | .error err => .error err)
  | .doRequestBatch pool queue =>
      .ok (queue.map fun item =>
        (answerSign reach answer pool item.payload).map fun payload =>
          ⟨item.uniqueBatchItemId, payload⟩)
  | .getKey .. => .error (.other "operation not supported")
  | .revokeKey .. => .error (.other "operation not supported")
  | .destroyKey .. => .error (.other "operation not supported")

/-- The batch gives signatures exactly when signing the items one by one does, and
the same ones. -/
def AgreesWithPlain (submitter : KeyPair) (items : List SignItem) : Prop :=
  ∀ sigs,
    ((signRawSubmitQueue submitter (enqueueAll items)).eval (signServer reach answer)).1 =
        .ok sigs ↔
      List.Forall₂ (fun item sig =>
        (signRaw item.keyPair item.data).eval (signServer reach answer) = .ok sig) items sigs

/-- The server that `self` reaches signs the data with the key of the item, and the
signature is one for the algorithm of `self`. -/
def SignedBy (self : KeyPair) (item : SignItem) (sig : Signature) : Prop :=
  ∃ algInfo, getAlgInfo item.keyPair.algorithm = some algInfo ∧
    Signs self.algorithm (answer (reach self.connPool) item.keyPair.privateKeyId
      (signParameters algInfo) item.data) sig

theorem SignedBy.unique {self : KeyPair} {item : SignItem} {sig sig' : Signature}
    (h : SignedBy reach answer self item sig) (h' : SignedBy reach answer self item sig') :
    sig = sig' := by
  obtain ⟨algInfo, halg, hsig⟩ := h
  obtain ⟨algInfo', halg', hsig'⟩ := h'
  obtain rfl : algInfo = algInfo' := Option.some.inj (halg.symm.trans halg')
  exact hsig.unique hsig'

theorem signRaw_eq_ok_iff {item : SignItem} (h : Supported item.keyPair) {sig : Signature} :
    (signRaw item.keyPair item.data).eval (signServer reach answer) = .ok sig ↔
      SignedBy reach answer item.keyPair item sig := by
  obtain ⟨algInfo, halg⟩ := Option.isSome_iff_exists.mp h
  rw [eval_signRaw, signPre_of_algInfo halg]
  simp only [Outcome.ok_bind, signServer, Outcome.ofExcept_ok, signRequest, answerSign, SignedBy,
    halg, Option.some.injEq, exists_eq_left']
  rcases answer (reach item.keyPair.connPool) item.keyPair.privateKeyId (signParameters algInfo)
    item.data with err | _ | payload
  · simp [Signs]
  · simp [Signs]
  · cases payload with
    | Sign signed => simp [Signs, signPost, halg]
    | _ => simp [Signs, signPost]

theorem submit_eq_ok_iff {submitter : KeyPair} {items : List SignItem}
    (h : ∀ item ∈ items, Supported item.keyPair) {sigs : List Signature} :
    ((signRawSubmitQueue submitter (enqueueAll items)).eval (signServer reach answer)).1 =
        .ok sigs ↔
      List.Forall₂ (SignedBy reach answer submitter) items sigs := by
  rw [eval_signRawSubmitQueue_of_ok submitter _ rfl, eval_submitBatch]
  simp only [signServer, Outcome.ofExcept_ok, Outcome.ok_bind, Outcome.collect_eq_ok_iff]
  rw [List.forall₂_map_left_iff]
  have hqueue := enqueueAll_items h
  generalize (enqueueAll items).items = queue at hqueue
  induction hqueue generalizing sigs with
  | nil => simp
  | @cons item batchItem items queue hitem _ ih =>
      obtain ⟨algInfo, halg⟩ := Option.isSome_iff_exists.mp (h item (by simp))
      have hpayload : batchItem.payload = signRequest item.keyPair algInfo item.data := by
        simpa [signPre_of_algInfo halg] using hitem.2.symm
      have hhead : ∀ sig, signBatchItem submitter
          ((answerSign reach answer submitter.connPool batchItem.payload).map fun payload =>
            ⟨batchItem.uniqueBatchItemId, payload⟩) = .ok sig ↔
          SignedBy reach answer submitter item sig := by
        intro sig
        rw [signBatchItem_map_eq_ok_iff, hpayload]
        simp [halg, signRequest, answerSign, SignedBy]
      cases sigs with
      | nil => simp
      | cons sig sigs =>
          rw [List.forall₂_cons, List.forall₂_cons]
          exact and_congr (hhead sig) (ih fun item' hmem => h item' (by simp [hmem]))

/-- For given servers: nothing is returned in either way, or each item has one signature
that the submitter gets and its own key pair gets. -/
theorem agreesWithPlain_iff_signedBy (submitter : KeyPair) {items : List SignItem}
    (h : ∀ item ∈ items, Supported item.keyPair) :
    AgreesWithPlain reach answer submitter items ↔
      (∃ item ∈ items, ∀ sig, ¬ SignedBy reach answer submitter item sig) ∧
        (∃ item ∈ items, ∀ sig, ¬ SignedBy reach answer item.keyPair item sig) ∨
      ∀ item ∈ items, ∃ sig, SignedBy reach answer submitter item sig ∧
        SignedBy reach answer item.keyPair item sig := by
  refine Iff.trans ?_ (forall₂_iff_forall₂_iff (R := SignedBy reach answer submitter)
    (S := fun item => SignedBy reach answer item.keyPair item)
    (fun _ _ _ => SignedBy.unique reach answer) fun _ _ _ => SignedBy.unique reach answer)
  refine forall_congr' fun sigs => ?_
  rw [submit_eq_ok_iff reach answer h]
  exact iff_congr Iff.rfl
    (forall₂_congr_of_mem fun item hmem sig => signRaw_eq_ok_iff reach answer (h item hmem))

end PlainSigning

/-- Two signatures for each cryptographic algorithm. -/
def sampleSignature (parameters : CryptographicParameters) (second : Bool) : Octets :=
  let b : UInt8 := if second then 2 else 1
  match parameters.cryptographicAlgorithm with
  | some .ECDSA => [48, 6, 2, 1, b, 2, 1, 1]
  | some .Ed25519 => List.replicate 64 b
  | some .Ed448 => List.replicate 114 b
  | _ => [b]

def signatureAlgorithm : Signature → SecurityAlgorithm
  | .RsaSha256 _ => .RSASHA256
  | .RsaSha512 _ => .RSASHA512
  | .EcdsaP256Sha256 _ => .ECDSAP256SHA256
  | .EcdsaP384Sha384 _ => .ECDSAP384SHA384
  | .Ed25519 _ => .ED25519
  | .Ed448 _ => .ED448

theorem Signs.signatureAlgorithm_eq {algorithm : SecurityAlgorithm} {answer : SignAnswer}
    {sig : Signature} (h : Signs algorithm answer sig) : signatureAlgorithm sig = algorithm := by
  obtain ⟨signed, algInfo, _, halg, hsig⟩ := h
  have hbind : ∀ {len : Nat} {x : Outcome SignError (OctetArray len)}
      {wrap : OctetArray len → Signature} {a : SecurityAlgorithm},
      (∀ o, signatureAlgorithm (wrap o) = a) → (x >>= fun o => .ok (wrap o)) = .ok sig →
      signatureAlgorithm sig = a := by
    intro len x wrap a hwrap hx
    obtain ⟨o, _, ho⟩ := Outcome.bind_eq_ok_iff.mp hx
    obtain rfl : wrap o = sig := by simpa using ho
    exact hwrap o
  rcases getAlgInfo_cases halg with ⟨rfl, rfl⟩ | ⟨rfl, rfl⟩ | ⟨rfl, rfl⟩ | ⟨rfl, rfl⟩ |
    ⟨rfl, rfl⟩ | ⟨rfl, rfl⟩
  · obtain rfl : Signature.RsaSha256 _ = sig := by simpa [ALG_RSASHA256] using hsig
    rfl
  · obtain rfl : Signature.RsaSha512 _ = sig := by simpa [ALG_RSASHA512] using hsig
    rfl
  all_goals exact hbind (fun _ => rfl) hsig

theorem sampleSignature_parses {algorithm : SecurityAlgorithm} {algInfo : AlgorithmInfo}
    (h : getAlgInfo algorithm = some algInfo) :
    ∃ first second,
      algInfo.sigParser (sampleSignature (signParameters algInfo) false) = .ok first ∧
      algInfo.sigParser (sampleSignature (signParameters algInfo) true) = .ok second ∧
      first ≠ second := by
  rcases getAlgInfo_cases h with ⟨_, rfl⟩ | ⟨_, rfl⟩ | ⟨_, rfl⟩ | ⟨_, rfl⟩ | ⟨_, rfl⟩ | ⟨_, rfl⟩
  all_goals exact ⟨_, _, rfl, rfl, by decide⟩

/-- Answers of servers that sign everything, one server with the second sample and
all others with the first. -/
def sampleAnswer {Server : Type} [DecidableEq Server] (other : Server) :
    Server → UniqueIdentifier → CryptographicParameters → Octets → SignAnswer :=
  fun server _ parameters _ =>
    .ok (some (.Sign ⟨sampleSignature parameters (decide (server = other))⟩))

theorem signs_sampleAnswer {algorithm : SecurityAlgorithm} {algInfo : AlgorithmInfo}
    (h : getAlgInfo algorithm = some algInfo) (second : Bool) :
    ∃ sig, Signs algorithm
      (.ok (some (.Sign ⟨sampleSignature (signParameters algInfo) second⟩))) sig := by
  obtain ⟨first, snd, hfirst, hsnd, _⟩ := sampleSignature_parses h
  cases second with
  | false => exact ⟨first, _, algInfo, rfl, h, hfirst⟩
  | true => exact ⟨snd, _, algInfo, rfl, h, hsnd⟩

theorem eq_of_signs_sample {algorithm : SecurityAlgorithm} {algInfo : AlgorithmInfo}
    (h : getAlgInfo algorithm = some algInfo) {b c : Bool} {sig : Signature}
    (hb : Signs algorithm (.ok (some (.Sign ⟨sampleSignature (signParameters algInfo) b⟩))) sig)
    (hc : Signs algorithm (.ok (some (.Sign ⟨sampleSignature (signParameters algInfo) c⟩))) sig) :
    b = c := by
  obtain ⟨first, second, hfirst, hsecond, hne⟩ := sampleSignature_parses h
  have hfalse : Signs algorithm
      (.ok (some (.Sign ⟨sampleSignature (signParameters algInfo) false⟩))) first :=
    ⟨_, algInfo, rfl, h, hfirst⟩
  have htrue : Signs algorithm
      (.ok (some (.Sign ⟨sampleSignature (signParameters algInfo) true⟩))) second :=
    ⟨_, algInfo, rfl, h, hsecond⟩
  cases b <;> cases c
  · rfl
  · exact absurd ((hfalse.unique hb).trans (hc.unique htrue)) hne
  · exact absurd ((hfalse.unique hc).trans (hb.unique htrue)) hne
  · rfl

/-- With servers that sign everything, two of which never give the same signature, only
the algorithm and the server of the submitter do. -/
theorem same_of_agreesWithPlain {Server : Type} {reach : ConnPool → Server}
    {submitter : KeyPair} {items : List SignItem}
    (hsupported : ∀ item ∈ items, Supported item.keyPair)
    (hagrees : ∀ answer, AgreesWithPlain reach answer submitter items) :
    ∀ item ∈ items, item.keyPair.algorithm = submitter.algorithm ∧
      reach item.keyPair.connPool = reach submitter.connPool := by
  classical
  intro item hmem
  have hsigns : ∀ item ∈ items, ∃ sig, SignedBy reach
      (sampleAnswer (reach submitter.connPool)) item.keyPair item sig := by
    intro item hmem
    obtain ⟨algInfo, halg⟩ := Option.isSome_iff_exists.mp (hsupported item hmem)
    obtain ⟨sig, hsig⟩ := signs_sampleAnswer halg _
    exact ⟨sig, algInfo, halg, hsig⟩
  rcases (agreesWithPlain_iff_signedBy reach _ submitter hsupported).mp
    (hagrees (sampleAnswer (reach submitter.connPool))) with ⟨_, item', hmem', hnone⟩ | hboth
  · obtain ⟨sig, hsig⟩ := hsigns item' hmem'
    exact absurd hsig (hnone sig)
  · obtain ⟨sig, ⟨algInfo, halg, hother⟩, algInfo', halg', hown⟩ := hboth item hmem
    obtain rfl : algInfo = algInfo' := Option.some.inj (halg.symm.trans halg')
    have halgorithm : item.keyPair.algorithm = submitter.algorithm :=
      hown.signatureAlgorithm_eq.symm.trans hother.signatureAlgorithm_eq
    refine ⟨halgorithm, ?_⟩
    rw [← halgorithm] at hother
    simpa using eq_of_signs_sample halg hown hother

/-- For given servers: a batch agrees with plain signing exactly when neither gives
signatures, or each item has one signature that the submitter's server gives for the
submitter's algorithm and its own server for its own algorithm. For all servers: exactly
when every item was enqueued by a key pair of the submitter's algorithm whose pool reaches
the submitter's server. -/
theorem agreesWithPlain_iff {Server : Type} (reach : ConnPool → Server) (submitter : KeyPair)
    (items : List SignItem) (hsupported : ∀ item ∈ items, Supported item.keyPair) :
    (∀ answer, AgreesWithPlain reach answer submitter items ↔
      (∃ item ∈ items, ∀ sig, ¬ SignedBy reach answer submitter item sig) ∧
        (∃ item ∈ items, ∀ sig, ¬ SignedBy reach answer item.keyPair item sig) ∨
      ∀ item ∈ items, ∃ sig, SignedBy reach answer submitter item sig ∧
        SignedBy reach answer item.keyPair item sig) ∧
    ((∀ answer, AgreesWithPlain reach answer submitter items) ↔
      ∀ item ∈ items, item.keyPair.algorithm = submitter.algorithm ∧
        reach item.keyPair.connPool = reach submitter.connPool) := by
  refine ⟨fun answer => agreesWithPlain_iff_signedBy reach answer submitter hsupported,
    same_of_agreesWithPlain hsupported, fun hsame answer sigs => ?_⟩
  rw [submit_eq_ok_iff reach answer hsupported]
  refine forall₂_congr_of_mem fun item hmem sig => ?_
  obtain ⟨halgorithm, hserver⟩ := hsame item hmem
  rw [signRaw_eq_ok_iff reach answer (hsupported item hmem), SignedBy, SignedBy, halgorithm,
    hserver]

/-- Key pairs that differ in the id of the private key and in the pool, of one server. -/
def pooledKeyPair (algorithm : SecurityAlgorithm) (privateKeyId : UniqueIdentifier)
    (handle : Nat) : KeyPair :=
  { sampleKeyPair algorithm ⟨"hsm", handle⟩ with privateKeyId }

def pooledItems (algorithm : SecurityAlgorithm) : List SignItem :=
  [⟨pooledKeyPair algorithm "first" 0, [7], [1, 2, 3]⟩,
    ⟨pooledKeyPair algorithm "second" 1, [8], [4, 5]⟩]

/-- Two key pairs of one server and a third that submits: they agree whatever the server
answers. Of another algorithm, they still agree where the server refuses. -/
theorem agreesWithPlain_of_two_key_pairs :
    (∀ answer, AgreesWithPlain ConnPool.serverId answer (pooledKeyPair .ED25519 "third" 2)
      (pooledItems .ED25519)) ∧
    AgreesWithPlain ConnPool.serverId (fun _ _ _ _ => .error (.other "refused"))
      (pooledKeyPair .RSASHA256 "third" 2) (pooledItems .RSASHA512) := by
  constructor
  · exact (agreesWithPlain_iff ConnPool.serverId _ (pooledItems .ED25519) (by decide)).2.mpr
      (by decide)
  · have hrefused : ∀ self item sig, ¬ SignedBy ConnPool.serverId
        (fun _ _ _ _ => .error (.other "refused")) self item sig := by
      rintro _ _ _ ⟨_, _, _, _, h, _⟩
      cases h
    exact ((agreesWithPlain_iff ConnPool.serverId _ (pooledItems .RSASHA512) (by decide)).1 _).mpr
      (Or.inl ⟨⟨_, List.mem_cons_self, hrefused _ _⟩, _, List.mem_cons_self, hrefused _ _⟩)

/-- Data enqueued by an RSA/SHA-512 key and submitted with an RSA/SHA-256 key comes
back labelled as an RSA/SHA-256 signature. -/
theorem not_agreesWithPlain_of_other_algorithm :
    ¬ AgreesWithPlain (fun _ => ()) (fun _ _ _ _ => .ok (some (.Sign ⟨[1]⟩)))
      (sampleKeyPair .RSASHA256 samplePool)
      [⟨sampleKeyPair .RSASHA512 samplePool, [7], [1, 2, 3]⟩] := by
  intro h
  have hplain := (h [.RsaSha256 [1]]).mp rfl
  cases hplain with
  | cons hsig _ => exact absurd hsig (by decide)

end DomainKmip.BatchSigning
