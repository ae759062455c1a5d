import DomainKmip.BatchSigning

/-!
Which signature of a batch belongs to which data. The ids generated for the batch
items travel to the server and back, but nothing reads them on their return.
-/

namespace DomainKmip.BatchAttribution

open DomainKmip.Library.BigEndian
open DomainKmip.Library.RustResult
open DomainKmip.Library.ListRelation
open DomainKmip.Domain
open DomainKmip.Kmip
open DomainKmip.Algorithms
open DomainKmip.Client
open DomainKmip.KeyPairs
open DomainKmip.SigningSafety
open DomainKmip.BatchSigning

structure ResponseItem where
  id : UniqueBatchItemID
  answer : SignAnswer

/-- The client hands over the items of the response in the order in which the server
sent them. -/
def batchReplies (response : List ResponseItem) : (call : Call) → Reply call
  | .connect _ => .ok ()
  | .release _ => ()
  | .query _ => .ok ⟨none⟩
  | .doRequestPayload .. => .error (.other "operation not supported")
  | .doRequestBatch .. =>
      .ok (response.map fun item => item.answer.map fun payload => ⟨some item.id, payload⟩)
  | .getKey .. => .error (.other "operation not supported")
  | .revokeKey .. => .error (.other "operation not supported")
  | .destroyKey .. => .error (.other "operation not supported")

def queueOf (self : KeyPair) (entries : List (UniqueBatchItemID × Octets)) : SignQueue :=
  enqueueAll (entries.map fun entry => ⟨self, entry.1, entry.2⟩)

/-- If the submission succeeds, there is one signature for each entry, and it is that
of the response item with the entry's id. -/
def AttributedById (self : KeyPair) (entries : List (UniqueBatchItemID × Octets))
    (response : List ResponseItem) : Prop :=
  ∀ sigs,
    ((signRawSubmitQueue self (queueOf self entries)).eval (batchReplies response)).1 =
      .ok sigs →
    List.Forall₂ (fun entry sig =>
      ∃ item ∈ response, item.id = entry.1 ∧ Signs self.algorithm item.answer sig) entries sigs

theorem submit_eq_ok_iff_response {self : KeyPair} {queue : SignQueue}
    {response : List ResponseItem} {sigs : List Signature} :
    ((signRawSubmitQueue self queue).eval (batchReplies response)).1 = .ok sigs ↔
      List.Forall₂ (fun item sig => Signs self.algorithm item.answer sig) response sigs := by
  rw [eval_signRawSubmitQueue_of_ok self _ rfl, eval_submitBatch]
  simp only [batchReplies, Outcome.ofExcept_ok, Outcome.ok_bind, Outcome.collect_eq_ok_iff,
    List.forall₂_map_left_iff, signBatchItem_map_eq_ok_iff]

/-- The item at the position of an entry carries the signature of the item with the
entry's id. -/
def SameSignature (self : KeyPair) (response : List ResponseItem)
    (entry : UniqueBatchItemID × Octets) (item : ResponseItem) : Prop :=
  ∃ other ∈ response, other.id = entry.1 ∧
    ∃ sig, Signs self.algorithm other.answer sig ∧ Signs self.algorithm item.answer sig

theorem attributedById_iff_sameSignature (self : KeyPair)
    (entries : List (UniqueBatchItemID × Octets)) (response : List ResponseItem) :
    AttributedById self entries response ↔
      (∃ item ∈ response, ∀ sig, ¬ Signs self.algorithm item.answer sig) ∨
        List.Forall₂ (SameSignature self response) entries response := by
  simp only [AttributedById, submit_eq_ok_iff_response]
  constructor
  · intro h
    by_cases hall : ∀ item ∈ response, ∃ sig, Signs self.algorithm item.answer sig
    · obtain ⟨sigs, hsigs⟩ := exists_forall₂ hall
      apply Or.inr
      have hentries := h sigs hsigs
      rw [List.forall₂_iff_get] at hentries hsigs ⊢
      refine ⟨hentries.1.trans hsigs.1.symm, fun i hi hi' => ?_⟩
      obtain ⟨other, hmem, hid, hother⟩ := hentries.2 i hi (by omega)
      exact ⟨other, hmem, hid, _, hother, hsigs.2 i hi' (by omega)⟩
    · push Not at hall
      exact Or.inl hall
  · rintro (⟨item, hmem, hnone⟩ | hsame) sigs hsigs
    · obtain ⟨sig, hsig, _⟩ := exists_of_forall₂_of_mem hsigs hsigs hmem
      exact absurd hsig (hnone sig)
    · rw [List.forall₂_iff_get] at hsame hsigs ⊢
      refine ⟨hsame.1.trans hsigs.1, fun i hi hi' => ?_⟩
      obtain ⟨other, hmem, hid, sig, hother, hitem⟩ := hsame.2 i hi (by omega)
      refine ⟨other, hmem, hid, ?_⟩
      rwa [(hsigs.2 i (by omega) hi').unique hitem]

/-- A response with the given ids in which only the item at position `k` carries the
second sample. -/
def markedResponse (algInfo : AlgorithmInfo) (ids : List UniqueBatchItemID) (k : Nat) :
    List ResponseItem :=
  ids.mapIdx fun j id =>
    ⟨id, .ok (some (.Sign ⟨sampleSignature (signParameters algInfo) (decide (j = k))⟩))⟩

theorem markedResponse_ids (algInfo : AlgorithmInfo) (ids : List UniqueBatchItemID) (k : Nat) :
    (markedResponse algInfo ids k).map ResponseItem.id = ids := by
  apply List.ext_getElem
  · simp [markedResponse]
  · intro j h₁ h₂
    simp [markedResponse]

/-- Only a response in queue order is attributed to the right data whatever it
contains. -/
theorem ids_eq_of_attributedById {self : KeyPair}
    {entries : List (UniqueBatchItemID × Octets)} {ids : List UniqueBatchItemID}
    (hsupported : Supported self)
    (h : ∀ response : List ResponseItem, response.map ResponseItem.id = ids →
      AttributedById self entries response) :
    ids = entries.map Prod.fst := by
  obtain ⟨algInfo, halg⟩ := Option.isSome_iff_exists.mp hsupported
  have hmarked : ∀ k, List.Forall₂ (SameSignature self (markedResponse algInfo ids k)) entries
      (markedResponse algInfo ids k) := by
    intro k
    rcases (attributedById_iff_sameSignature self entries _).mp
      (h _ (markedResponse_ids algInfo ids k)) with ⟨item, hmem, hnone⟩ | hsame
    · obtain ⟨j, hj, rfl⟩ := List.mem_mapIdx.mp hmem
      obtain ⟨sig, hsig⟩ := signs_sampleAnswer halg (decide (j = k))
      exact absurd hsig (hnone sig)
    · exact hsame
  have hlength : entries.length = ids.length := by
    simpa [markedResponse] using (hmarked 0).length_eq
  apply List.ext_getElem
  · simpa using hlength.symm
  · intro k hk hk'
    have hget := (List.forall₂_iff_get.mp (hmarked k)).2 k (by omega)
      (by simpa [markedResponse] using hk)
    obtain ⟨other, hmem, hid, sig, hother, hitem⟩ := hget
    obtain ⟨j, hj, rfl⟩ := List.mem_mapIdx.mp hmem
    have hmark : decide (j = k) = true := by
      apply eq_of_signs_sample halg hother (c := true)
      simpa [markedResponse] using hitem
    obtain rfl : j = k := by simpa using hmark
    simpa using hid

theorem attributedById_of_ids {self : KeyPair} {entries : List (UniqueBatchItemID × Octets)}
    {response : List ResponseItem}
    (h : response.map ResponseItem.id = entries.map Prod.fst) :
    AttributedById self entries response := by
  intro sigs hsubmit
  have hsigs := submit_eq_ok_iff_response.mp hsubmit
  have hlength : response.length = entries.length := by simpa using congrArg List.length h
  rw [List.forall₂_iff_get] at hsigs ⊢
  refine ⟨by omega, fun i hi hi' => ?_⟩
  refine ⟨response.get ⟨i, by omega⟩, List.get_mem _ _, ?_, hsigs.2 i (by omega) hi'⟩
  have hid := congrArg (fun ids : List UniqueBatchItemID => ids[i]?) h
  simpa [List.getElem?_eq_getElem, hi, hlength] using hid

/-- For one response: the attribution is right when some item is refused, since then
nothing is returned, or when position and id lead to the same signatures. For all
responses with given ids: exactly when the ids are those of the queue, in order. -/
theorem attributedById_iff (self : KeyPair) (entries : List (UniqueBatchItemID × Octets))
    (hsupported : Supported self) :
    (∀ response, AttributedById self entries response ↔
      (∃ item ∈ response, ∀ sig, ¬ Signs self.algorithm item.answer sig) ∨
        List.Forall₂ (SameSignature self response) entries response) ∧
    (∀ ids : List UniqueBatchItemID,
      (∀ response : List ResponseItem, response.map ResponseItem.id = ids →
        AttributedById self entries response) ↔
      ids = entries.map Prod.fst) := by
  refine ⟨attributedById_iff_sameSignature self entries, fun ids => ?_⟩
  constructor
  · exact ids_eq_of_attributedById hsupported
  · rintro rfl response hids
    exact attributedById_of_ids hids

def twoEntries : List (UniqueBatchItemID × Octets) := [([7], [1, 2, 3]), ([8], [4, 5])]

/-- Two entries: the ids must come back in order, but a response in the other order does no
harm if one of its items is a refusal. -/
theorem attributedById_of_two_entries :
    (∀ ids : List UniqueBatchItemID,
      (∀ response : List ResponseItem, response.map ResponseItem.id = ids →
        AttributedById (sampleKeyPair .ED25519 samplePool) twoEntries response) ↔
      ids = [[7], [8]]) ∧
    AttributedById (sampleKeyPair .ED25519 samplePool) twoEntries
      [⟨[8], .error (.other "refused")⟩, ⟨[7], .ok (some (.Sign ⟨List.replicate 64 1⟩))⟩] := by
  obtain ⟨hresponse, hids⟩ :=
    attributedById_iff (sampleKeyPair .ED25519 samplePool) twoEntries (by decide)
  refine ⟨hids, (hresponse _).mpr (Or.inl ⟨_, List.mem_cons_self, ?_⟩)⟩
  rintro sig ⟨_, _, h, _⟩
  cases h

theorem not_attributedById_of_swapped :
    ¬ AttributedById (sampleKeyPair .RSASHA256 samplePool) [([1], [10]), ([2], [20])]
      [⟨[2], .ok (some (.Sign ⟨[22]⟩))⟩, ⟨[1], .ok (some (.Sign ⟨[11]⟩))⟩] := by
  intro h
  have hsigs := h [.RsaSha256 [22], .RsaSha256 [11]] rfl
  cases hsigs with
  | cons hfirst _ =>
      obtain ⟨item, hmem, hid, hsig⟩ := hfirst
      obtain rfl : item = ⟨[1], .ok (some (.Sign ⟨[11]⟩))⟩ := by
        rcases List.mem_cons.mp hmem with rfl | hmem
        · simp at hid
        · simpa using hmem
      obtain ⟨signed, algInfo, hanswer, halg, hsig⟩ := hsig
      obtain rfl : ALG_RSASHA256 = algInfo := Option.some.inj halg
      obtain rfl : SignResponsePayload.mk [11] = signed := by simpa using hanswer
      simp [ALG_RSASHA256] at hsig

end DomainKmip.BatchAttribution
