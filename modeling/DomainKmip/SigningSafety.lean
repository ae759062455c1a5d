import DomainKmip.KeyPairs

namespace DomainKmip.SigningSafety

open DomainKmip.Library.BigEndian
open DomainKmip.Library.RustResult
open DomainKmip.Library.RustSlice
open DomainKmip.Library.Interaction
open DomainKmip.Library.Der
open DomainKmip.Library.DerReading
open DomainKmip.Domain
open DomainKmip.Kmip
open DomainKmip.EcdsaSignature
open DomainKmip.Algorithms
open DomainKmip.Client
open DomainKmip.KeyPairs

theorem length_le_of_stripSign {halfLen : Nat} {x y : Octets}
    (h : stripSign halfLen x = .ok y) : y.length ≤ halfLen := by
  obtain ⟨z, _, hz⟩ := Outcome.bind_eq_ok_iff.mp h
  split at hz
  · simp at hz
  · obtain rfl : z = y := by simpa using hz
    omega

theorem stripSign_ne_panic (halfLen : Nat) (x : Octets) : stripSign halfLen x ≠ .panic := by
  intro h
  rcases Outcome.bind_eq_panic_iff.mp h with hx | ⟨z, _, hz⟩
  · rw [dropSign.eq_def] at hx
    split at hx
    · split at hx <;> simp at hx
    · simp at hx
  · split at hz <;> simp at hz

theorem total_takeSignature : Total takeSignature :=
  total_takeSequence <| total_takeUnsigned.bind fun _ => total_takeUnsigned.bind fun _ =>
    total_pure _

/-- The slice bounds hold because both numbers were cut to half the length. -/
theorem copy_halves {len : Nat} {r s : Octets} (hr : r.length ≤ len / 2)
    (hs : s.length ≤ len / 2) :
    ∃ signature : OctetArray len,
      (do
        let signature ← copyFromSlice (zeros len) (← usizeSub (len / 2) r.length) (len / 2) r
        copyFromSlice signature (← usizeSub len s.length) len s : Outcome SignError _) =
          .ok signature ∧
        signature.val = (List.replicate (len / 2 - r.length) 0 ++ r) ++
          (List.replicate (len - len / 2 - s.length) 0 ++ s) := by
  have hhalf : len / 2 ≤ len := Nat.div_le_self len 2
  obtain ⟨a, ha, haval⟩ := copyFromSlice_of_fits SignError (zeros len)
    (len / 2 - r.length) (len / 2) r (by omega)
  obtain ⟨b, hb, hbval⟩ := copyFromSlice_of_fits SignError a
    (len - s.length) len s (by omega)
  refine ⟨b, ?_, ?_⟩
  · rw [usizeSub_of_le hr, Outcome.ok_bind, ha, Outcome.ok_bind,
      usizeSub_of_le (by omega), Outcome.ok_bind, hb]
  · have hfront : (List.replicate (len / 2 - r.length) 0 ++ r).length = len / 2 := by
      simp
      omega
    have hend : a.val.drop len = [] := List.drop_of_length_le (by rw [a.property])
    rw [hbval, hend, List.append_nil, haval, zeros, List.take_replicate, List.drop_replicate,
      Nat.min_eq_left (by omega), List.take_append, hfront, List.take_of_length_le (by omega),
      List.take_replicate, Nat.min_eq_left (by omega), List.append_assoc _ _ s]
    congr 3
    omega

theorem parseX962_ne_panic (len : Nat) (bytes : Octets) : parseX962 len bytes ≠ .panic := by
  intro h
  rcases Outcome.bind_eq_panic_iff.mp h with hdecode | ⟨⟨r, s⟩, _, h⟩
  · exact decode_ne_panic total_takeSignature bytes (Outcome.mapErr_eq_panic_iff.mp hdecode)
  rcases Outcome.bind_eq_panic_iff.mp h with hr | ⟨r', hr, h⟩
  · exact stripSign_ne_panic _ _ hr
  rcases Outcome.bind_eq_panic_iff.mp h with hs | ⟨s', hs, h⟩
  · exact stripSign_ne_panic _ _ hs
  obtain ⟨signature, hsignature, _⟩ :=
    copy_halves (length_le_of_stripSign hr) (length_le_of_stripSign hs)
  rw [hsignature] at h
  simp at h

theorem parseRaw_of_length {len : Nat} {sig : Octets} (h : sig.length = len) :
    parseRaw len sig = .ok ⟨sig, h⟩ := by
  subst h
  obtain ⟨a, ha, hval⟩ := copyFromSlice_of_fits SignError (zeros sig.length)
    0 sig.length sig (by omega)
  have hsig : a = ⟨sig, rfl⟩ := by
    apply Subtype.ext
    simpa [zeros] using hval
  rw [parseRaw, if_neg (by simp), ha, hsig]

theorem parseRaw_ne_panic (len : Nat) (sig : Octets) : parseRaw len sig ≠ .panic := by
  by_cases h : sig.length = len
  · rw [parseRaw_of_length h]
    nofun
  · rw [parseRaw, if_pos h]
    nofun

theorem getAlgInfo_cases {alg : SecurityAlgorithm} {algInfo : AlgorithmInfo}
    (h : getAlgInfo alg = some algInfo) :
    (alg = .RSASHA256 ∧ algInfo = ALG_RSASHA256) ∨
    (alg = .RSASHA512 ∧ algInfo = ALG_RSASHA512) ∨
    (alg = .ECDSAP256SHA256 ∧ algInfo = ALG_ECDSAP256SHA256) ∨
    (alg = .ECDSAP384SHA384 ∧ algInfo = ALG_ECDSAP384SHA384) ∨
    (alg = .ED448 ∧ algInfo = ALG_ED448) ∨
    (alg = .ED25519 ∧ algInfo = ALG_ED25519) := by
  cases alg <;> simp_all [getAlgInfo, ALG_MAPPINGS, eq_comm]

theorem sigParser_ne_panic {alg : SecurityAlgorithm} {algInfo : AlgorithmInfo}
    (h : getAlgInfo alg = some algInfo) (sig : Octets) : algInfo.sigParser sig ≠ .panic := by
  have hbind : ∀ {len : Nat} {x : Outcome SignError (OctetArray len)}
      (wrap : OctetArray len → Signature), x ≠ .panic →
      (x >>= fun a => Outcome.ok (wrap a)) ≠ .panic := by
    intro len x wrap hx hpanic
    rcases Outcome.bind_eq_panic_iff.mp hpanic with hx' | ⟨_, _, h⟩
    · exact hx hx'
    · simp at h
  rcases getAlgInfo_cases h with ⟨_, rfl⟩ | ⟨_, rfl⟩ | ⟨_, rfl⟩ | ⟨_, rfl⟩ | ⟨_, rfl⟩ | ⟨_, rfl⟩
  · nofun
  · nofun
  · exact hbind _ (parseX962_ne_panic 64 sig)
  · exact hbind _ (parseX962_ne_panic 96 sig)
  · exact hbind _ (parseRaw_ne_panic 114 sig)
  · exact hbind _ (parseRaw_ne_panic 64 sig)

def IsSign (payload : ResponsePayload) : Prop := ∃ signed, payload = .Sign signed

theorem signPost_eq_panic_iff {self : KeyPair} {payload : ResponsePayload} :
    signPost self payload = .panic ↔ ¬ IsSign payload := by
  cases payload with
  | Sign signed =>
      simp only [signPost, IsSign, ResponsePayload.Sign.injEq, exists_eq', not_true_eq_false,
        iff_false]
      split
      · nofun
      · rename_i algInfo h
        exact sigParser_ne_panic h _
  | _ => simp [signPost, IsSign]

/-- A batch item that the submitter turns into a signature. -/
def Accepted (self : KeyPair) (res : Except NetError BatchItemResponse) : Prop :=
  ∃ id signed algInfo sig, res = .ok ⟨id, some (.Sign signed)⟩ ∧
    getAlgInfo self.algorithm = some algInfo ∧ algInfo.sigParser signed.signatureData = .ok sig

/-- A successful batch item without a payload, or with one of another operation. -/
def Malformed (res : Except NetError BatchItemResponse) : Prop :=
  ∃ id payload, res = .ok ⟨id, payload⟩ ∧ ∀ p, payload = some p → ¬ IsSign p

theorem signBatchItem_eq_ok_iff {self : KeyPair} {res : Except NetError BatchItemResponse}
    {sig : Signature} :
    signBatchItem self res = .ok sig ↔
      ∃ id signed algInfo, res = .ok ⟨id, some (.Sign signed)⟩ ∧
        getAlgInfo self.algorithm = some algInfo ∧
        algInfo.sigParser signed.signatureData = .ok sig := by
  rcases res with err | ⟨id, _ | payload⟩
  · simp [signBatchItem]
  · simp [signBatchItem]
  · cases payload with
    | Sign signed =>
        cases h : getAlgInfo self.algorithm <;> simp [signBatchItem, signPost, h]
    | _ => simp [signBatchItem, signPost]

theorem accepted_iff {self : KeyPair} {res : Except NetError BatchItemResponse} :
    Accepted self res ↔ ∃ sig, signBatchItem self res = .ok sig := by
  simp only [signBatchItem_eq_ok_iff, Accepted]
  constructor
  · rintro ⟨id, signed, algInfo, sig, h⟩
    exact ⟨sig, id, signed, algInfo, h⟩
  · rintro ⟨sig, id, signed, algInfo, h⟩
    exact ⟨id, signed, algInfo, sig, h⟩

theorem signBatchItem_eq_panic_iff {self : KeyPair}
    {res : Except NetError BatchItemResponse} :
    signBatchItem self res = .panic ↔ Malformed res := by
  rcases res with err | ⟨id, _ | payload⟩
  · simp [signBatchItem, Malformed]
  · simp [signBatchItem, Malformed]
  · simp [signBatchItem, Malformed, signPost_eq_panic_iff]

section Eval

variable (self : KeyPair) (reply : (call : Call) → Reply call)

theorem eval_signRaw (data : Octets) :
    (signRaw self data).eval reply = (do
      let request ← signPre self data
      Outcome.ofExcept (fun _ => {}) (reply (.connect self.connPool))
      let response ← Outcome.ofExcept (fun _ => {})
        (reply (.doRequestPayload self.connPool request))
      let res ← Outcome.ofExcept (fun _ => {}) response
      signPost self res) := by
  simp only [signRaw, Action.eval_bind, Action.eval_lift, Action.eval_withClient,
    Action.eval_doRequestPayload, Outcome.ok_bind]

theorem eval_submitBatch (queue : List BatchItem) :
    (submitBatch self queue).eval reply = (do
      let batchItemResults ← Outcome.ofExcept (fun _ => {})
        (reply (.doRequestBatch self.connPool queue))
      Outcome.collect (signBatchItem self) batchItemResults) := by
  simp only [submitBatch, Action.eval_bind, Action.eval_lift, Action.eval_doRequestBatch,
    Outcome.ok_bind]

/-- Without a client a submission leaves the queue alone; with one it drains it. -/
theorem eval_signRawSubmitQueue_of_error {queue : SignQueue} {err : KmipConnError}
    (h : reply (.connect self.connPool) = .error err) :
    (signRawSubmitQueue self queue).eval reply = (.err {}, queue) := by
  rw [signRawSubmitQueue, eval_bracket, h]

theorem eval_signRawSubmitQueue_of_ok {queue : SignQueue}
    (h : reply (.connect self.connPool) = .ok ()) :
    (signRawSubmitQueue self queue).eval reply =
      ((submitBatch self queue.items).eval reply, SignQueue.new) := by
  rw [signRawSubmitQueue, eval_bracket, h]
  exact Program.eval_bind reply _ _

theorem eval_signRaw_eq_panic_iff (data : Octets) :
    (signRaw self data).eval reply = .panic ↔
      ∃ request payload, signPre self data = .ok request ∧
        reply (.connect self.connPool) = .ok () ∧
        reply (.doRequestPayload self.connPool request) = .ok (.ok payload) ∧
        ¬ IsSign payload := by
  rw [eval_signRaw]
  cases hpre : signPre self data with
  | panic => 
      exfalso
      rw [signPre] at hpre
      split at hpre <;> simp at hpre
  | err e => simp
  | ok request =>
      cases hconnect : reply (.connect self.connPool) with
      | error err => simp
      | ok _ =>
          cases hreply : reply (.doRequestPayload self.connPool request) with
          | error err => simp [hreply]
          | ok response =>
              cases response with
              | error err => simp [hreply]
              | ok payload => simp [hreply, signPost_eq_panic_iff]

theorem eval_signRawSubmitQueue_eq_panic_iff (queue : SignQueue) :
    ((signRawSubmitQueue self queue).eval reply).1 = .panic ↔
      ∃ items, reply (.connect self.connPool) = .ok () ∧
        reply (.doRequestBatch self.connPool queue.items) = .ok items ∧
        ∃ before x after, items = before ++ x :: after ∧
          (∀ a ∈ before, Accepted self a) ∧ Malformed x := by
  cases h : reply (.connect self.connPool) with
  | error err => simp [eval_signRawSubmitQueue_of_error self reply h]
  | ok _ =>
      rw [eval_signRawSubmitQueue_of_ok self reply h, eval_submitBatch]
      cases reply (.doRequestBatch self.connPool queue.items) with
      | error err => simp
      | ok items =>
          simp [Outcome.collect_eq_panic_iff, accepted_iff, signBatchItem_eq_panic_iff]

end Eval

/-- The signer survives a response exactly when every payload it unwraps is that of
a Sign operation. In a batch only the items up to the first one that is refused are
unwrapped. -/
theorem signing_ne_panic_iff (self : KeyPair) (reply : (call : Call) → Reply call) :
    (∀ data, (signRaw self data).eval reply ≠ .panic ↔
      ∀ request payload, signPre self data = .ok request →
        reply (.connect self.connPool) = .ok () →
        reply (.doRequestPayload self.connPool request) = .ok (.ok payload) →
        IsSign payload) ∧
    (∀ queue, ((signRawSubmitQueue self queue).eval reply).1 ≠ .panic ↔
      ∀ items, reply (.connect self.connPool) = .ok () →
        reply (.doRequestBatch self.connPool queue.items) = .ok items →
        ∀ before x after, items = before ++ x :: after →
          (∀ a ∈ before, Accepted self a) → ¬ Malformed x) := by
  constructor
  · intro data
    rw [ne_eq, eval_signRaw_eq_panic_iff]
    push Not
    rfl
  · intro queue
    rw [ne_eq, eval_signRawSubmitQueue_eq_panic_iff]
    push Not
    rfl

def sampleKeyPair (algorithm : SecurityAlgorithm) (connPool : ConnPool) : KeyPair where
  algorithm := algorithm
  privateKeyId := "private"
  publicKeyId := "public"
  connPool := connPool
  dnskey := { flags := 257, protocol := 3, algorithm, publicKey := [], fits := by decide }
  flags := 257

def samplePool : ConnPool := ⟨"hsm", 0⟩

/-- A server that answers a Sign request with an Activate payload, and a batch with
one item that has no payload. -/
def strayReplies : (call : Call) → Reply call
  | .connect _ => .ok ()
  | .release _ => ()
  | .query _ => .ok ⟨none⟩
  | .doRequestPayload .. => .ok (.ok (.Activate "private"))
  | .doRequestBatch .. => .ok [.ok ⟨none, none⟩]
  | .getKey .. => .error (.other "no such key")
  | .revokeKey .. => .ok ()
  | .destroyKey .. => .ok ()

theorem signing_panics_on_stray_replies :
    (signRaw (sampleKeyPair .RSASHA256 samplePool) [1, 2, 3]).eval strayReplies = .panic ∧
    ((signRawSubmitQueue (sampleKeyPair .RSASHA256 samplePool)
      (signRawEnqueue (sampleKeyPair .RSASHA256 samplePool) [7] SignQueue.new
        [1, 2, 3]).2).eval strayReplies).1 = .panic :=
  ⟨rfl, rfl⟩

end DomainKmip.SigningSafety
