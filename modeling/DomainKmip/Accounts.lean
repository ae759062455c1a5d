import DomainKmip.Sessions

namespace DomainKmip.Accounts

open DomainKmip.Library.BigEndian
open DomainKmip.Library.RustResult
open DomainKmip.Library.Interaction
open DomainKmip.Library.Concurrency
open DomainKmip.Domain
open DomainKmip.Kmip
open DomainKmip.Dependencies
open DomainKmip.Client
open DomainKmip.KeyPairs
open DomainKmip.SigningSafety
open DomainKmip.Generate
open DomainKmip.GenerateSafety
open DomainKmip.Operations
open DomainKmip.Sessions

/-- What an operation makes the server do. -/
inductive Deed where
  | signature (pool : ConnPool) (id : UniqueIdentifier) (data : Octets)
  | batch (pool : ConnPool) (items : List BatchItem)
  | revocation (pool : ConnPool) (id : UniqueIdentifier)
  | destruction (pool : ConnPool) (id : UniqueIdentifier)
  | creation (payload : CreateKeyPairResponsePayload)

namespace Deed

/-- The operation is called for it. -/
def calls : Deed → ApiCall → Bool
  | .signature pool id data, .signRaw self data' =>
      self.connPool = pool ∧ self.privateKeyId = id ∧ data' = data
  | .batch pool items, .signRawSubmitQueue self queue =>
      self.connPool = pool ∧ queue.items = items
  | .revocation pool id, .destroy keyId connPool => connPool = pool ∧ keyId = id
  | .destruction pool id, .destroy keyId connPool => connPool = pool ∧ keyId = id
  | .creation _, .generate .. => true
  | _, _ => false

def exchanges : Deed → Exchange → Bool
  | .signature pool id data, ⟨.doRequestPayload pool' (.Sign id' _ data'), _⟩ =>
      pool' = pool ∧ id' = some id ∧ data' = data
  | .signature .., _ => false
  | .batch pool items, e => e.call = .doRequestBatch pool items
  | .revocation pool id, e => e.call = .revokeKey pool id
  | .destruction pool id, e => e.call = .destroyKey pool id
  | .creation payload, e => confirms e = some payload

/-- The operation returns that it has been done. -/
def returns (deed : Deed) : (operation : ApiCall) → operation.Result → Bool
  | .signRaw self data, .ok _ => deed.calls (.signRaw self data)
  | .signRawSubmitQueue self queue, (.ok _, _) => deed.calls (.signRawSubmitQueue self queue)
  | .destroy keyId connPool, .ok _ => deed.calls (.destroy keyId connPool)
  | .generate .., .ok keyPair =>
      match deed with
      | .creation payload => payload = ⟨keyPair.privateKeyId, keyPair.publicKeyId⟩
      | _ => false
  | _, _ => false

def effect (crates : Crates) (deed : Deed) : Effect (api crates) where
  calls := deed.calls
  exchanges := deed.exchanges
  returns := deed.returns

@[simp] theorem effect_exchanges (crates : Crates) (deed : Deed) :
    (deed.effect crates).exchanges = deed.exchanges := rfl

end Deed

section Operations

variable {crates : Crates} {deed : Deed} {operation : ApiCall} {h : List Exchange} {pool : ConnPool}

/-- An operation asks for nothing that it is not called for. -/
theorem calls_of_asks {c : Call} {r : Reply c} (hasks : Asks operation c)
    (h : deed.exchanges ⟨c, r⟩ = true) : deed.calls operation = true := by
  cases hasks <;> cases deed <;> simp_all [Deed.exchanges, Deed.calls, confirms]

@[simp] theorem exchanges_connect (reply : Except KmipConnError Unit) :
    deed.exchanges ⟨.connect pool, reply⟩ = false := by
  cases deed <;> cases reply <;> simp [Deed.exchanges, confirms]

@[simp] theorem exchanges_release : deed.exchanges ⟨.release pool, ()⟩ = false := by
  cases deed <;> simp [Deed.exchanges, confirms]

@[simp] theorem exchanges_getKey {id : UniqueIdentifier} (reply : Except NetError ManagedObject) :
    deed.exchanges ⟨.getKey pool id, reply⟩ = false := by
  cases deed <;> cases reply <;> simp [Deed.exchanges, confirms]

/-- The requests of an operation that has made none of them. -/
theorem allowed_of_clean {c : Call} (hasks : Asks operation c)
    (hclean : ∀ e ∈ h, deed.exchanges e = false) :
    (deed.effect crates).protocol.allowed operation h c :=
  fun _ hexchanges => ⟨calls_of_asks hasks hexchanges, hclean⟩

theorem allowed_connect : (deed.effect crates).protocol.allowed operation h (.connect pool) := by
  intro reply hexchanges
  exact Bool.noConfusion ((exchanges_connect reply).symm.trans hexchanges)

theorem allowed_release : (deed.effect crates).protocol.allowed operation h (.release pool) := by
  intro _ hexchanges
  exact Bool.noConfusion (exchanges_release.symm.trans hexchanges)

theorem exchanges_of_calls_signRaw {self : KeyPair} {data : Octets}
    (h : deed.calls (.signRaw self data) = true) (parameters : Option CryptographicParameters)
    (reply : Except NetError (Except NetError ResponsePayload)) :
    deed.exchanges ⟨.doRequestPayload self.connPool
      (.Sign (some self.privateKeyId) parameters data), reply⟩ = true := by
  cases deed <;> simp_all [Deed.calls, Deed.exchanges]

theorem not_exchanges_revokeKey {id id' : UniqueIdentifier} {reply : Except NetError Unit}
    (h : deed.exchanges ⟨.destroyKey pool id, reply⟩ = true) (revoked : Except NetError Unit) :
    deed.exchanges ⟨.revokeKey pool id', revoked⟩ = false := by
  cases deed <;> simp_all [Deed.exchanges, confirms]

theorem exchanges_of_calls_destroy {keyId : String}
    (h : deed.calls (.destroy keyId pool) = true) (revoked destroyed : Except NetError Unit) :
    deed.exchanges ⟨.revokeKey pool keyId, revoked⟩ = true ∨
      deed.exchanges ⟨.destroyKey pool keyId, destroyed⟩ = true := by
  cases deed <;> simp_all [Deed.calls, Deed.exchanges]

theorem exchanges_of_calls_submit {self : KeyPair} {queue : SignQueue}
    (h : deed.calls (.signRawSubmitQueue self queue) = true)
    (reply : Except NetError (List (Except NetError BatchItemResponse))) :
    deed.exchanges ⟨.doRequestBatch self.connPool queue.items, reply⟩ = true := by
  cases deed <;> simp_all [Deed.calls, Deed.exchanges]

theorem calls_of_returns {a : operation.Result} (h : deed.returns operation a = true) :
    deed.calls operation = true := by
  cases operation with
  | signRaw self data => cases a <;> simp_all [Deed.returns]
  | signRawSubmitQueue self queue =>
      obtain ⟨outcome, rest⟩ := a
      cases outcome <;> simp_all [Deed.returns]
  | destroy keyId connPool => cases a <;> simp_all [Deed.returns]
  | generate => cases a <;> cases deed <;> simp_all [Deed.returns, Deed.calls]
  | _ => cases a <;> simp_all [Deed.returns]

theorem signRaw_accounted (self : KeyPair) (data : Octets) :
    (signRaw self data).program.Meets history
      ((deed.effect crates).protocol.allowed (.signRaw self data))
      ((deed.effect crates).protocol.post (.signRaw self data)) [] := by
  rw [signRaw]
  cases hpre : signPre self data with
  | err e => exact fun hreturns => Bool.noConfusion hreturns
  | panic => exact fun hreturns => Bool.noConfusion hreturns
  | ok request =>
      obtain ⟨parameters, rfl⟩ : ∃ parameters,
          request = .Sign (some self.privateKeyId) (some parameters) data := by
        rw [signPre] at hpre
        split at hpre
        · simp at hpre
        · exact ⟨_, (Outcome.ok.inj hpre).symm⟩
      simp only [Action.lift_bind_lift]
      refine Action.meets_withClient.mpr ⟨allowed_connect, ?_, ?_⟩
      · intro err _ _ hreturns
        exact Bool.noConfusion hreturns
      · rintro _ rfl
        refine Action.meets_bind.mpr ⟨allowed_of_clean (.sign self data parameters) ?_, ?_⟩
        · simp
        · rintro reply _ rfl
          refine Action.meets_lift.mpr ⟨allowed_release, ?_⟩
          rintro _ rfl hreturns
          refine ⟨_, ?_, exchanges_of_calls_signRaw (calls_of_returns hreturns) parameters reply⟩
          simp

theorem signRawSubmitQueue_accounted (self : KeyPair) (queue : SignQueue) :
    (signRawSubmitQueue self queue).Meets history
      ((deed.effect crates).protocol.allowed (.signRawSubmitQueue self queue))
      ((deed.effect crates).protocol.post (.signRawSubmitQueue self queue)) [] := by
  refine meets_bracket.mpr ⟨allowed_connect, ?_, ?_⟩
  · intro err _ _ hreturns
    exact Bool.noConfusion hreturns
  · rintro _ rfl
    rw [Program.meets_bind, submitBatch]
    simp only [Action.lift_bind_lift]
    refine Action.meets_bind.mpr ⟨allowed_of_clean (.batch self queue) (by simp), ?_⟩
    rintro reply _ rfl
    refine Action.meets_lift.mpr ⟨allowed_release, ?_⟩
    rintro _ rfl hreturns
    refine ⟨_, ?_, exchanges_of_calls_submit (calls_of_returns hreturns) reply⟩
    simp

theorem destroy_accounted (keyId : String) (pool : ConnPool) :
    (destroy crates keyId pool).Meets history
      ((deed.effect crates).protocol.allowed (.destroy keyId pool))
      ((deed.effect crates).protocol.post (.destroy keyId pool)) [] := by
  rw [destroy]
  refine Action.meets_withClient.mpr ⟨allowed_connect, ?_, ?_⟩
  · intro err _ _ hreturns
    exact Bool.noConfusion hreturns
  · rintro _ rfl
    refine Action.meets_bind.mpr ⟨allowed_of_clean (.revoke keyId pool) (by simp), ?_⟩
    rintro revoked _ rfl
    refine Action.meets_bind.mpr (Action.meets_lift.mpr ?_)
    cases revoked with
    | error err =>
        refine ⟨allowed_release, ?_⟩
        rintro _ rfl hreturns
        exact Bool.noConfusion hreturns
    | ok _ =>
        refine Action.meets_bind.mpr ⟨?_, ?_⟩
        · intro reply hexchanges
          refine ⟨calls_of_asks (.destroy keyId pool) hexchanges, ?_⟩
          simpa using not_exchanges_revokeKey hexchanges _
        · rintro destroyed _ rfl
          refine Action.meets_lift.mpr ⟨allowed_release, ?_⟩
          rintro _ rfl hreturns
          rcases exchanges_of_calls_destroy (calls_of_returns hreturns) (.ok ()) destroyed with
            hrevoked | hdestroyed
          · exact ⟨_, by simp, hrevoked⟩
          · exact ⟨_, by simp, hdestroyed⟩

theorem call_of_confirms {payload : CreateKeyPairResponsePayload} {e : Exchange}
    (h : confirms e = some payload) :
    ∃ pool common privateKey publicKey,
      e.call = .doRequestPayload pool (.CreateKeyPair common privateKey publicKey) := by
  obtain ⟨c, r⟩ := e
  cases c with
  | doRequestPayload pool request =>
      cases request with
      | CreateKeyPair common privateKey publicKey =>
          exact ⟨pool, common, privateKey, publicKey, rfl⟩
      | _ => simp [confirms] at h
  | _ => simp [confirms] at h

theorem creation_of_allowed {params : GenerateParams} {c : Call} {r : Reply c}
    (hallowed : Allowed params h c) (hexchanges : deed.exchanges ⟨c, r⟩ = true) :
    ∃ payload, deed = .creation payload := by
  cases deed with
  | creation payload => exact ⟨payload, rfl⟩
  | signature pool id data =>
      rw [Deed.exchanges.eq_def] at hexchanges
      split at hexchanges <;> simp_all [Allowed]
  | _ =>
      obtain rfl := of_decide_eq_true hexchanges
      exact hallowed.elim

theorem confirms_eq_none {params : GenerateParams} {request : RequestPayload}
    (hcreations : creations h = [] ∨ Retries params h request) :
    ∀ e ∈ h, confirms e = none := by
  intro e he
  by_contra hconfirms
  obtain ⟨payload, hpayload⟩ := Option.ne_none_iff_exists'.mp hconfirms
  have hcreation : isCreation e = true := by
    obtain ⟨pool, common, privateKey, publicKey, hcall⟩ := call_of_confirms hpayload
    obtain ⟨c, r⟩ := e
    obtain rfl : c = _ := hcall
    rfl
  have hmem : e ∈ creations h := List.mem_filter.mpr ⟨he, hcreation⟩
  rcases hcreations with hnone | ⟨pool, common, privateKey, publicKey, err, curve, hone, _⟩
  · simp [hnone] at hmem
  · rw [hone, List.mem_singleton] at hmem
    subst hmem
    exact hconfirms rfl

/-- The requests of `generate` for a key pair stop with the first that is confirmed. -/
theorem generate_accounted (publicKeyName privateKeyName : String) (params : GenerateParams)
    (flags : UInt16) (pool : ConnPool) :
    (generate crates publicKeyName privateKeyName params flags pool).Meets history
      ((deed.effect crates).protocol.allowed
        (.generate publicKeyName privateKeyName params flags pool))
      ((deed.effect crates).protocol.post
        (.generate publicKeyName privateKeyName params flags pool)) [] := by
  refine Program.Meets.weaken
    (generate_meets crates publicKeyName privateKeyName params flags pool) ?_ ?_
  · intro h call hallowed reply hexchanges
    obtain ⟨payload, rfl⟩ := creation_of_allowed hallowed hexchanges
    refine ⟨rfl, fun e he => ?_⟩
    obtain ⟨pool', common, privateKey, publicKey, hcall⟩ :=
      call_of_confirms (of_decide_eq_true hexchanges)
    obtain rfl : call = _ := hcall
    obtain ⟨_, _, _, hcreations⟩ := hallowed
    simp [Deed.exchanges, confirms_eq_none hcreations e he]
  · rintro outcome h ⟨_, hcompleted⟩ hreturns
    cases outcome with
    | ok keyPair =>
        cases deed with
        | creation payload =>
            obtain ⟨payload', hconfirmed, hprivate, hpublic, _⟩ := hcompleted keyPair rfl
            obtain rfl : payload = payload' := by
              simpa [Deed.effect, Deed.returns, hprivate, hpublic] using hreturns
            obtain ⟨e, he, hconfirms⟩ :=
              List.mem_filterMap.mp (hconfirmed ▸ List.mem_singleton_self payload)
            exact ⟨e, he, by simp [Deed.exchanges, hconfirms]⟩
        | _ => exact Bool.noConfusion hreturns
    | _ => exact Bool.noConfusion hreturns

/-- Operations that only fetch keys. -/
theorem accounted_of_getKey (hasks : ∀ c, Asks operation c → ∃ pool id, c = .getKey pool id)
    (hcalls : deed.calls operation = false) :
    (operation.program crates).Meets history ((deed.effect crates).protocol.allowed operation)
      ((deed.effect crates).protocol.post operation) [] := by
  have hopens : Opens ((deed.effect crates).protocol.allowed operation) (fun _ => True)
      (fun _ => True) operation.connPool :=
    ⟨fun _ _ => allowed_connect, fun _ _ => trivial, fun _ _ _ => trivial,
      fun _ _ => allowed_release, fun _ _ => trivial⟩
  refine (preserves_program crates hopens ?_ [] trivial).mono ?_
  · intro c hc h _
    obtain ⟨pool, id, rfl⟩ := hasks c hc
    refine ⟨fun reply hexchanges => ?_, fun _ => trivial⟩
    exact Bool.noConfusion ((exchanges_getKey reply).symm.trans hexchanges)
  · intro a h _ hreturns
    exact Bool.noConfusion (hcalls.symm.trans (calls_of_returns hreturns))

theorem effect_governs (crates : Crates) (deed : Deed) :
    (deed.effect crates).protocol.Governs := by
  intro operation
  cases operation with
  | generate publicKeyName privateKeyName params flags pool =>
      exact generate_accounted publicKeyName privateKeyName params flags pool
  | destroy keyId pool => exact destroy_accounted keyId pool
  | signRaw self data => exact signRaw_accounted self data
  | signRawSubmitQueue self queue => exact signRawSubmitQueue_accounted self queue
  | _ =>
      refine accounted_of_getKey ?_ (by cases deed <;> rfl)
      rintro _ ⟨⟩
      exact ⟨_, _, rfl⟩

end Operations

/-- A caller is returned no more signatures, batches, revocations and destructions than it
asked the server for, and no key pair more often than the server confirmed it to it; and
it asks, or is confirmed, no more often than it was called to. -/
theorem deeds_accounted {σ ι : Type} [DecidableEq ι] {crates : Crates}
    {env : Environment Call Reply σ} {s₀ : σ} {t : List (Label (api crates) ι)}
    {sys : System (api crates) ι σ} (hrun : Runs env s₀ t sys) (deed : Deed) (i : ι) :
    t.countP ((deed.effect crates).returned i) ≤ t.countP ((deed.effect crates).exchanged i) ∧
      t.countP ((deed.effect crates).exchanged i) ≤ t.countP ((deed.effect crates).called i) :=
  Effect.accounted (effect_governs crates deed) hrun i

def signing : ApiCall := .signRaw (sampleKeyPair .RSASHA256 samplePool) [1, 2, 3]

def signingRun : List (Label (api sampleCrates) Unit) :=
  Label.alone (fun s call => (willingReplies call, s)) () signing ()

/-- A signature that is returned for one call has been asked for once. -/
theorem signing_asks_once : signingRun.countP
    (((Deed.signature samplePool "private" [1, 2, 3]).effect sampleCrates).exchanged ()) = 1 := by
  have hstart : Runs (fun _ call reply _ => reply = willingReplies call) ()
    ([] : List (Label (api sampleCrates) Unit)) ⟨fun _ => none, ()⟩ := .start
  have hrun := hstart.trace_of_fixed (i := ()) (fun _ => rfl) rfl signing
  obtain ⟨hreturned, hcalled⟩ := deeds_accounted hrun (.signature samplePool "private" [1, 2, 3]) ()
  exact Nat.le_antisymm (hcalled.trans (by decide)) (le_trans (by decide) hreturned)

end DomainKmip.Accounts
