import DomainKmip.BatchSigning

namespace DomainKmip.QueueConservation

open DomainKmip.Library.BigEndian
open DomainKmip.Library.RustResult
open DomainKmip.Library.Interaction
open DomainKmip.Domain
open DomainKmip.Kmip
open DomainKmip.Algorithms
open DomainKmip.Client
open DomainKmip.KeyPairs
open DomainKmip.SigningSafety
open DomainKmip.BatchSigning

/-- A call that was made on a queue, with what it exchanged with pool and server and
how it ended. -/
inductive QueueCall where
  | enqueue (self : KeyPair) (uuid : UniqueBatchItemID) (data : Octets)
      (outcome : Outcome SignError (Option Signature))
  | submit (self : KeyPair) (exchange : List (Event Call Reply))
      (outcome : Outcome SignError (List Signature))

namespace QueueCall

def Panicked : QueueCall → Prop
  | enqueue _ _ _ outcome => outcome = .panic
  | submit _ _ outcome => outcome = .panic

/-- An enqueue that returned an error, or a submission that got no connection. -/
def Refused : QueueCall → Prop
  | enqueue _ _ _ outcome => ∃ e, outcome = .err e
  | submit self exchange _ => ∃ err, ⟨.connect self.connPool, .error err⟩ ∈ exchange

def IsSubmit : QueueCall → Prop
  | enqueue .. => False
  | submit .. => True

/-- The batches that the call handed over for sending. -/
def handed : QueueCall → List (List BatchItem)
  | enqueue .. => []
  | submit _ exchange _ => exchange.filterMap fun event =>
      match event.call with
      | .doRequestBatch _ items => some items
      | _ => none

/-- The item that stands for data to be signed with a key pair. -/
def signItem (self : KeyPair) (uuid : UniqueBatchItemID) (data : Octets) : Option BatchItem :=
  (getAlgInfo self.algorithm).map fun algInfo =>
    { operation := .Sign
      uniqueBatchItemId := some uuid
      payload := signRequest self algInfo data }

/-- The item of a successful enqueue. -/
def enqueued : QueueCall → List BatchItem
  | enqueue self uuid data (.ok _) => (signItem self uuid data).toList
  | _ => []

end QueueCall

/-- One call on a queue, whatever pool and server reply. -/
inductive QueueStep : SignQueue → QueueCall → SignQueue → Prop
  | enqueue {queue : SignQueue} (self : KeyPair) (uuid : UniqueBatchItemID) (data : Octets) :
      QueueStep queue (.enqueue self uuid data (signRawEnqueue self uuid queue data).1)
        (signRawEnqueue self uuid queue data).2
  | submit {queue queue' : SignQueue} {self : KeyPair} {exchange : List (Event Call Reply)}
      {outcome : Outcome SignError (List Signature)}
      (h : (signRawSubmitQueue self queue).Admits exchange (outcome, queue')) :
      QueueStep queue (.submit self exchange outcome) queue'

/-- The calls made on a queue since it was new, up to a panic. -/
inductive QueueRun : List QueueCall → SignQueue → Prop
  | new : QueueRun [] SignQueue.new
  | step {past : List QueueCall} {call : QueueCall} {queue queue' : SignQueue}
      (run : QueueRun past queue) (hpast : ∀ call ∈ past, ¬ call.Panicked)
      (h : QueueStep queue call queue') : QueueRun (past ++ [call]) queue'

theorem signRawEnqueue_eq (self : KeyPair) (uuid : UniqueBatchItemID) (queue : SignQueue)
    (data : Octets) :
    signRawEnqueue self uuid queue data =
      match QueueCall.signItem self uuid data with
      | some item => (.ok none, ⟨queue.items ++ [item]⟩)
      | none => (.err {}, queue) := by
  rw [signRawEnqueue, QueueCall.signItem]
  cases halg : getAlgInfo self.algorithm with
  | none =>
      rw [signPre, halg]
      rfl
  | some algInfo =>
      rw [signPre_of_algInfo halg]
      rfl

theorem submitBatch_program (self : KeyPair) (items : List BatchItem) :
    (submitBatch self items).program =
      .call (.doRequestBatch self.connPool items) fun reply => .done (do
        let results ← Outcome.ofExcept (fun _ => {}) reply
        Outcome.collect (signBatchItem self) results) := by
  show Program.call _ _ = _
  congr 1
  funext reply
  cases reply <;> rfl

/-- A submission without a client, or one that hands over the whole queue. -/
theorem submit_cases {self : KeyPair} {queue queue' : SignQueue}
    {exchange : List (Event Call Reply)} {outcome : Outcome SignError (List Signature)}
    (h : (signRawSubmitQueue self queue).Admits exchange (outcome, queue')) :
    (∃ err, exchange = [⟨.connect self.connPool, .error err⟩] ∧ queue' = queue) ∨
    (∃ reply, exchange = [⟨.connect self.connPool, .ok ()⟩,
        ⟨.doRequestBatch self.connPool queue.items, reply⟩, ⟨.release self.connPool, ()⟩] ∧
      queue' = SignQueue.new) := by
  rw [signRawSubmitQueue, submitBatch_program] at h
  cases h with
  | call reply h =>
      cases reply with
      | error err =>
          cases h
          exact Or.inl ⟨err, rfl, rfl⟩
      | ok _ =>
          cases h with
          | call reply h =>
              cases h with
              | call _ h =>
                  cases h
                  exact Or.inr ⟨reply, rfl, rfl⟩

theorem QueueStep.of_refused {queue queue' : SignQueue} {call : QueueCall}
    (h : QueueStep queue call queue') (hrefused : call.Refused) :
    queue' = queue ∧ call.handed = [] := by
  cases h with
  | enqueue self uuid data =>
      obtain ⟨e, he⟩ := hrefused
      rw [signRawEnqueue_eq] at he ⊢
      cases hitem : QueueCall.signItem self uuid data with
      | none => exact ⟨rfl, rfl⟩
      | some item => simp [hitem] at he
  | submit h =>
      rcases submit_cases h with ⟨err, rfl, rfl⟩ | ⟨reply, rfl, rfl⟩
      · exact ⟨rfl, rfl⟩
      · obtain ⟨err, herr⟩ := hrefused
        simp at herr

theorem QueueStep.of_submit {queue queue' : SignQueue} {call : QueueCall}
    (h : QueueStep queue call queue') (hsubmit : call.IsSubmit) (haccepted : ¬ call.Refused) :
    queue' = SignQueue.new ∧ call.handed = [queue.items] := by
  cases h with
  | enqueue self uuid data => exact hsubmit.elim
  | submit h =>
      rcases submit_cases h with ⟨err, rfl, rfl⟩ | ⟨reply, rfl, rfl⟩
      · exact absurd ⟨err, by simp⟩ haccepted
      · exact ⟨rfl, rfl⟩

/-- What is handed over and what stays are what was there before and what came in. -/
theorem QueueStep.conserves {queue queue' : SignQueue} {call : QueueCall}
    (h : QueueStep queue call queue') :
    call.handed.flatten ++ queue'.items = queue.items ++ call.enqueued := by
  cases h with
  | enqueue self uuid data =>
      rw [signRawEnqueue_eq]
      cases hitem : QueueCall.signItem self uuid data <;>
        simp [QueueCall.handed, QueueCall.enqueued, hitem]
  | submit h =>
      rcases submit_cases h with ⟨err, rfl, rfl⟩ | ⟨reply, rfl, rfl⟩ <;>
        simp [QueueCall.handed, QueueCall.enqueued, SignQueue.new]

theorem QueueRun.conserves {past : List QueueCall} {queue : SignQueue}
    (run : QueueRun past queue) :
    (past.flatMap QueueCall.handed).flatten ++ queue.items =
      past.flatMap QueueCall.enqueued := by
  induction run with
  | new => rfl
  | @step past call queue queue' _ _ h ih =>
      calc
        ((past ++ [call]).flatMap QueueCall.handed).flatten ++ queue'.items
            = (past.flatMap QueueCall.handed).flatten ++
                (call.handed.flatten ++ queue'.items) := by simp
        _ = ((past.flatMap QueueCall.handed).flatten ++ queue.items) ++ call.enqueued := by
            rw [h.conserves, List.append_assoc]
        _ = (past ++ [call]).flatMap QueueCall.enqueued := by
            rw [ih]
            simp

/-- The batches handed over so far and the content of the queue are the items of the
successful enqueues. A call that is refused leaves the queue alone, and any other
submission hands over all of it. -/
theorem queue_conserved (past : List QueueCall) (queue : SignQueue)
    (run : QueueRun past queue) :
    (past.flatMap QueueCall.handed).flatten ++ queue.items =
      past.flatMap QueueCall.enqueued ∧
    ∀ call queue', QueueStep queue call queue' →
      (call.Refused → queue' = queue ∧ call.handed = []) ∧
      (call.IsSubmit → ¬ call.Refused →
        queue' = SignQueue.new ∧ call.handed = [queue.items]) :=
  ⟨run.conserves, fun _ _ h => ⟨h.of_refused, h.of_submit⟩⟩

section Sample

def sampleSigner : KeyPair := sampleKeyPair .RSASHA256 samplePool

def sampleItem (uuid : UniqueBatchItemID) (data : Octets) : BatchItem where
  operation := .Sign
  uniqueBatchItemId := some uuid
  payload := signRequest sampleSigner ALG_RSASHA256 data

/-- A submission that the server fails to answer, between two enqueues. -/
def sampleCalls : List QueueCall :=
  [ .enqueue sampleSigner [7] [1, 2, 3] (.ok none),
    .submit sampleSigner
      [ ⟨.connect samplePool, .ok ()⟩,
        ⟨.doRequestBatch samplePool [sampleItem [7] [1, 2, 3]], .error (.other "timeout")⟩,
        ⟨.release samplePool, ()⟩ ] (.err {}),
    .enqueue sampleSigner [8] [4, 5] (.ok none) ]

theorem queueRun_sampleCalls : QueueRun sampleCalls ⟨[sampleItem [8] [4, 5]]⟩ := by
  have hfirst : QueueRun (sampleCalls.take 1) ⟨[sampleItem [7] [1, 2, 3]]⟩ :=
    .step .new (by simp) (.enqueue sampleSigner [7] [1, 2, 3])
  have hsecond : QueueRun (sampleCalls.take 2) SignQueue.new := by
    apply QueueRun.step hfirst
    · simp [sampleCalls, QueueCall.Panicked]
    · apply QueueStep.submit
      rw [signRawSubmitQueue, submitBatch_program]
      exact .call _ (.call _ (.call _ (.done _)))
  apply QueueRun.step hsecond
  · simp [sampleCalls, QueueCall.Panicked]
  · exact .enqueue sampleSigner [8] [4, 5]

theorem queue_conserved_on_sampleCalls :
    (sampleCalls.flatMap QueueCall.handed).flatten ++ [sampleItem [8] [4, 5]] =
      sampleCalls.flatMap QueueCall.enqueued :=
  (queue_conserved sampleCalls ⟨[sampleItem [8] [4, 5]]⟩ queueRun_sampleCalls).1

end Sample

end DomainKmip.QueueConservation
