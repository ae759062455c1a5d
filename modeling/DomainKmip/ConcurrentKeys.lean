import DomainKmip.KeyStore
import DomainKmip.Sessions

namespace DomainKmip.ConcurrentKeys

open DomainKmip.Library.RustResult
open DomainKmip.Library.Interaction
open DomainKmip.Library.Concurrency
open DomainKmip.Domain
open DomainKmip.Kmip
open DomainKmip.Dependencies
open DomainKmip.Client
open DomainKmip.SigningSafety
open DomainKmip.Generate
open DomainKmip.GenerateSafety
open DomainKmip.KeyStore
open DomainKmip.Operations
open DomainKmip.Sessions

inductive Change where
  | created (payload : CreateKeyPairResponsePayload)
  | activated (id : UniqueIdentifier)
  | revoked (id : UniqueIdentifier)
  | destroyed (id : UniqueIdentifier)
  deriving DecidableEq

def reportedBy : RequestPayload → ResponsePayload → Option Change
  | .CreateKeyPair .., .CreateKeyPair payload => some (.created payload)
  | .Activate (some id), .Activate _ => some (.activated id)
  | _, _ => none

/-- The change that an answer reports. -/
def reported : Exchange → Option Change
  | ⟨.doRequestPayload _ request, .ok (.ok payload)⟩ => reportedBy request payload
  | ⟨.revokeKey _ id, .ok _⟩ => some (.revoked id)
  | ⟨.destroyKey _ id, .ok _⟩ => some (.destroyed id)
  | _ => none

def changes (h : List Exchange) : List Change := h.filterMap reported

inductive AsksFor : Call → Change → Prop
  | created (pool : ConnPool) (common privateKey publicKey : Option (List Attribute))
      (payload : CreateKeyPairResponsePayload) :
      AsksFor (.doRequestPayload pool (.CreateKeyPair common privateKey publicKey))
        (.created payload)
  | activated (pool : ConnPool) (id : UniqueIdentifier) :
      AsksFor (.doRequestPayload pool (.Activate (some id))) (.activated id)
  | revoked (pool : ConnPool) (id : UniqueIdentifier) : AsksFor (.revokeKey pool id) (.revoked id)
  | destroyed (pool : ConnPool) (id : UniqueIdentifier) :
      AsksFor (.destroyKey pool id) (.destroyed id)

/-- The changes that the key lifecycle permits. -/
inductive Applies (s : Store) : Change → Store → Prop
  | created {payload : CreateKeyPairResponsePayload} (fresh : Fresh s payload) :
      Applies s (.created payload) (s.add payload .PreActive)
  | activated {id : UniqueIdentifier} (preActive : s id = some .PreActive) :
      Applies s (.activated id) (s.set id .Active)
  | revoked {id : UniqueIdentifier} (active : s id = some .Active) :
      Applies s (.revoked id) (s.set id .Deactivated)
  | destroyed {id : UniqueIdentifier}
      (permitted : s id = some .PreActive ∨ s id = some .Deactivated) :
      Applies s (.destroyed id) (s.set id .Destroyed)

section Changes

variable {s s' : Store} {call : Call} {reply : Reply call}

theorem Serves.changes (h : Serves s call reply s') :
    (reported ⟨call, reply⟩ = none ∧ s' = s) ∨ ∃ change, AsksFor call change ∧
      Applies s change s' ∧ reported ⟨call, reply⟩ = some change := by
  cases h with
  | createKeyPair pool common privateKey publicKey fresh =>
      exact Or.inr ⟨_, .created .., .created fresh, rfl⟩
  | activate pool preActive => exact Or.inr ⟨_, .activated .., .activated preActive, rfl⟩
  | revokeKey pool active => exact Or.inr ⟨_, .revoked .., .revoked active, rfl⟩
  | destroyKey pool permitted => exact Or.inr ⟨_, .destroyed .., .destroyed permitted, rfl⟩
  | _ => exact Or.inl ⟨rfl, rfl⟩

theorem reportedBy_eq_none {request : RequestPayload} {payload : ResponsePayload}
    (h : answers request payload = false) : reportedBy request payload = none := by
  cases request with
  | Activate id => cases id <;> cases payload <;> first | rfl | exact Bool.noConfusion h
  | _ => cases payload <;> first | rfl | exact Bool.noConfusion h

/-- An answer that is not the one of a server that carried out the request. -/
theorem reported_eq_none (h : Refused call reply ∨ Failed call reply) :
    reported ⟨call, reply⟩ = none := by
  cases call with
  | doRequestPayload pool request =>
      rcases reply with err | err | payload
      · rfl
      · rfl
      · exact reportedBy_eq_none (h.resolve_left id)
  | revokeKey pool id =>
      cases reply with
      | error err => rfl
      | ok _ => exact (or_self_iff.mp h).elim
  | destroyKey pool id =>
      cases reply with
      | error err => rfl
      | ok _ => exact (or_self_iff.mp h).elim
  | _ => rfl

/-- What one exchange does to the store: nothing that it reports, or a change it asked
for, which it may or may not report. -/
theorem Faulty.changes (h : Faulty s call reply s') :
    (reported ⟨call, reply⟩ = none ∧ s' = s) ∨ ∃ change, AsksFor call change ∧
      Applies s change s' ∧
        (reported ⟨call, reply⟩ = none ∨ reported ⟨call, reply⟩ = some change) := by
  cases h with
  | served h =>
      rcases Serves.changes h with hsame | ⟨change, hasks, happlies, hreported⟩
      · exact Or.inl hsame
      · exact Or.inr ⟨change, hasks, happlies, Or.inr hreported⟩
  | refused h hstore => exact Or.inl ⟨reported_eq_none (Or.inl h), hstore⟩
  | failed h hstore =>
      rcases hstore with hstore | ⟨reply', hserves⟩
      · exact Or.inl ⟨reported_eq_none (Or.inr h), hstore⟩
      · rcases Serves.changes hserves with ⟨_, hsame⟩ | ⟨change, hasks, happlies, _⟩
        · exact Or.inl ⟨reported_eq_none (Or.inr h), hsame⟩
        · exact Or.inr ⟨change, hasks, happlies, Or.inl (reported_eq_none (Or.inr h))⟩

/-- What a change does to one key. -/
inductive Turns (change : Change) (id : UniqueIdentifier) :
    Option KeyState → Option KeyState → Prop
  | same (state : Option KeyState) : Turns change id state state
  | created {payload : CreateKeyPairResponsePayload} (hchange : change = .created payload)
      (hid : id = payload.privateKeyUniqueIdentifier ∨ id = payload.publicKeyUniqueIdentifier) :
      Turns change id none (some .PreActive)
  | activated (hchange : change = .activated id) :
      Turns change id (some .PreActive) (some .Active)
  | revoked (hchange : change = .revoked id) :
      Turns change id (some .Active) (some .Deactivated)
  | destroyed {state : KeyState} (hchange : change = .destroyed id)
      (permitted : state = .PreActive ∨ state = .Deactivated) :
      Turns change id (some state) (some .Destroyed)

theorem Applies.turns {change : Change} (h : Applies s change s') (id : UniqueIdentifier) :
    Turns change id (s id) (s' id) := by
  cases h with
  | @created payload fresh =>
      by_cases hpublic : id = payload.publicKeyUniqueIdentifier
      · subst hpublic
        rw [fresh.noPublic, Store.add, Store.set_same]
        exact .created rfl (Or.inr rfl)
      · by_cases hprivate : id = payload.privateKeyUniqueIdentifier
        · subst hprivate
          rw [fresh.noPrivate, Store.add, Store.set_of_ne hpublic, Store.set_same]
          exact .created rfl (Or.inl rfl)
        · rw [Store.add, Store.set_of_ne hpublic, Store.set_of_ne hprivate]
          exact .same _
  | @activated id' preActive =>
      by_cases hid : id = id'
      · subst hid
        rw [preActive, Store.set_same]
        exact .activated rfl
      · rw [Store.set_of_ne hid]
        exact .same _
  | @revoked id' active =>
      by_cases hid : id = id'
      · subst hid
        rw [active, Store.set_same]
        exact .revoked rfl
      · rw [Store.set_of_ne hid]
        exact .same _
  | @destroyed id' permitted =>
      by_cases hid : id = id'
      · subst hid
        rw [Store.set_same]
        rcases permitted with h | h
        · rw [h]
          exact .destroyed rfl (Or.inl rfl)
        · rw [h]
          exact .destroyed rfl (Or.inr rfl)
      · rw [Store.set_of_ne hid]
        exact .same _

namespace Turns

variable {change : Change} {id : UniqueIdentifier} {x y : Option KeyState}

theorem ne_none (h : Turns change id x y) (hx : x ≠ none) : y ≠ none := by
  cases h with
  | same => exact hx
  | _ => simp

theorem of_some {state : KeyState} (h : Turns change id (some state) y) :
    y = some state ∨ change = .activated id ∨ change = .revoked id ∨ change = .destroyed id := by
  cases h with
  | same => exact Or.inl rfl
  | activated hchange => exact Or.inr (Or.inl hchange)
  | revoked hchange => exact Or.inr (Or.inr (Or.inl hchange))
  | destroyed hchange => exact Or.inr (Or.inr (Or.inr hchange))

theorem of_active (h : Turns change id (some .Active) y) :
    y = some .Active ∨ change = .revoked id ∧ y = some .Deactivated := by
  cases h with
  | same => exact Or.inl rfl
  | revoked hchange => exact Or.inr ⟨hchange, rfl⟩
  | destroyed _ permitted => simp at permitted

theorem of_destroyed (h : Turns change id (some .Destroyed) y) : y = some .Destroyed := by
  cases h with
  | same => rfl
  | destroyed => rfl

theorem of_ended (h : Turns change id x y) (hx : x = some .Deactivated ∨ x = some .Destroyed) :
    y = some .Deactivated ∨ y = some .Destroyed := by
  rcases hx with rfl | rfl
  · cases h with
    | same => exact Or.inl rfl
    | destroyed => exact Or.inr rfl
  · exact Or.inr h.of_destroyed

end Turns

end Changes

/-- Only `generate` creates keys, and activates the private half of what it was told of;
only `destroy` revokes its key, and destroys it once it was told that it is revoked. -/
def MayChange : ApiCall → List Exchange → Change → Prop
  | .generate .., _, .created _ => True
  | .generate .., h, .activated id =>
      ∃ payload, .created payload ∈ changes h ∧ id = payload.privateKeyUniqueIdentifier
  | .destroy keyId _, _, .revoked id => id = keyId
  | .destroy keyId _, h, .destroyed id => id = keyId ∧ .revoked keyId ∈ changes h
  | _, _, _ => False

/-- What the caller was told when the operation succeeds. -/
def Succeeds : (operation : ApiCall) → operation.Result → List Exchange → Prop
  | .generate .., .ok keyPair, h =>
      ∃ payload, .created payload ∈ changes h ∧
        .activated payload.privateKeyUniqueIdentifier ∈ changes h ∧
        keyPair.privateKeyId = payload.privateKeyUniqueIdentifier ∧
        keyPair.publicKeyId = payload.publicKeyUniqueIdentifier
  | .destroy keyId _, .ok _, h => .revoked keyId ∈ changes h ∧ .destroyed keyId ∈ changes h
  | _, _, _ => True

def lifecycle (crates : Crates) : Protocol (api crates) where
  allowed operation h call := ∀ change, AsksFor call change → MayChange operation h change
  post := Succeeds

theorem mem_changes_of_mem {h : List Exchange} {e : Exchange} {change : Change} (he : e ∈ h)
    (hreported : reported e = some change) : change ∈ changes h :=
  List.mem_filterMap.mpr ⟨e, he, hreported⟩

theorem reported_of_confirms {e : Exchange} {payload : CreateKeyPairResponsePayload}
    (h : confirms e = some payload) : reported e = some (.created payload) := by
  rw [confirms.eq_def] at h
  split at h
  · rw [← Option.some.inj h]
    rfl
  · simp at h

theorem created_mem_of_confirmed {h : List Exchange} {payload : CreateKeyPairResponsePayload}
    (hconfirmed : confirmed h = [payload]) : .created payload ∈ changes h := by
  have hmem : payload ∈ confirmed h := by simp [hconfirmed]
  obtain ⟨e, he, hconfirms⟩ := List.mem_filterMap.mp hmem
  exact mem_changes_of_mem he (reported_of_confirms hconfirms)

section Governs

variable {crates : Crates}

theorem generate_lifecycle (publicKeyName privateKeyName : String) (params : GenerateParams)
    (flags : UInt16) (pool : ConnPool) :
    (generate crates publicKeyName privateKeyName params flags pool).program.Meets history
      ((lifecycle crates).allowed (.generate publicKeyName privateKeyName params flags pool))
      (Succeeds (.generate publicKeyName privateKeyName params flags pool)) [] := by
  refine Program.Meets.weaken
    (generate_meets crates publicKeyName privateKeyName params flags pool) ?_ ?_
  · intro h call hallowed change hasks
    cases hasks with
    | created pool' common privateKey publicKey payload => trivial
    | activated pool' id =>
        obtain ⟨_, payload, hconfirmed, hid⟩ := hallowed
        exact ⟨payload, created_mem_of_confirmed hconfirmed, Option.some.inj hid⟩
    | revoked pool' id => exact hallowed.elim
    | destroyed pool' id => exact hallowed.elim
  · rintro (keyPair | err | _) h ⟨_, hcompleted⟩
    · obtain ⟨payload, hconfirmed, hprivate, hpublic, _, _, pool', id', hmem⟩ :=
        hcompleted keyPair rfl
      exact ⟨payload, created_mem_of_confirmed hconfirmed, mem_changes_of_mem hmem rfl, hprivate,
        hpublic⟩
    · trivial
    · trivial

theorem destroy_lifecycle (keyId : String) (pool : ConnPool) :
    (destroy crates keyId pool).program.Meets history
      ((lifecycle crates).allowed (.destroy keyId pool)) (Succeeds (.destroy keyId pool)) [] := by
  have hpassive : ∀ {h : List Exchange} {call : Call}, Passive call →
      (lifecycle crates).allowed (.destroy keyId pool) h call := by
    intro h call hpassive change hasks
    cases hasks <;> exact hpassive.elim
  refine Action.meets_withClient.mpr ⟨hpassive trivial, fun _ _ _ => trivial, ?_⟩
  rintro _ rfl
  rw [Action.meets_bind, Action.meets_revokeKey]
  refine ⟨?_, ?_⟩
  · intro change hasks
    cases hasks
    rfl
  · rintro (err | ⟨⟩) _ rfl
    · exact ⟨hpassive trivial, fun _ _ => trivial⟩
    · rw [Action.andThen, Action.meets_bind, Action.meets_lift, Outcome.ofExcept_ok,
        Action.andThen, Action.meets_bind, Action.meets_destroyKey]
      refine ⟨?_, ?_⟩
      · intro change hasks
        cases hasks
        exact ⟨rfl, mem_changes_of_mem List.mem_concat_self rfl⟩
      · rintro (err | ⟨⟩) _ rfl
        · exact ⟨hpassive trivial, fun _ _ => trivial⟩
        · refine ⟨hpassive trivial, ?_⟩
          rintro _ rfl
          constructor
          · exact mem_changes_of_mem (e := ⟨.revokeKey pool keyId, .ok ()⟩) (by simp) rfl
          · exact mem_changes_of_mem (e := ⟨.destroyKey pool keyId, .ok ()⟩) (by simp) rfl

/-- The other operations ask for no change. -/
theorem program_asks_nothing {operation : ApiCall}
    (hasks : ∀ call, Asks operation call → ∀ change, ¬ AsksFor call change) :
    (operation.program crates).Meets history
      (fun _ call => ∀ change, ¬ AsksFor call change) (fun _ _ => True) [] := by
  have hopens : Opens (fun _ call => ∀ change, ¬ AsksFor call change) (fun _ => True)
      (fun _ => True) operation.connPool := by
    constructor
    · intro h _ change hasks
      cases hasks
    · exact fun _ _ => trivial
    · exact fun _ _ _ => trivial
    · intro h _ change hasks
      cases hasks
    · exact fun _ _ => trivial
  exact preserves_program crates hopens (fun call hcall h _ => ⟨hasks call hcall, fun _ => trivial⟩)
    [] trivial

variable (crates) in
theorem lifecycle_governs : (lifecycle crates).Governs := by
  have hother : ∀ {operation : ApiCall}, (∀ a h, Succeeds operation a h) →
      (∀ call, Asks operation call → ∀ change, ¬ AsksFor call change) →
      (operation.program crates).Meets history ((lifecycle crates).allowed operation)
        (Succeeds operation) [] := by
    intro operation hpost hasks
    refine (program_asks_nothing hasks).weaken ?_ fun a h _ => hpost a h
    exact fun h call hnothing change hchange => (hnothing change hchange).elim
  rintro (_ | _ | _ | _ | _ | _ | _ | _)
  · exact generate_lifecycle _ _ _ _ _
  · exact destroy_lifecycle _ _
  all_goals
    refine hother (fun _ _ => trivial) ?_
    rintro call hcall change hchange
    cases hcall
    cases hchange

end Governs

def reports (p : Change → Bool) (e : Exchange) : Bool := (reported e).any p

theorem reports_eq_true_iff {p : Change → Bool} {e : Exchange} :
    reports p e = true ↔ ∃ change, reported e = some change ∧ p change = true := by
  rw [reports]
  cases reported e <;> simp

def Change.creates (id : UniqueIdentifier) : Change → Bool
  | created payload =>
      id = payload.privateKeyUniqueIdentifier ∨ id = payload.publicKeyUniqueIdentifier
  | _ => false

def Change.revokes (id : UniqueIdentifier) : Change → Bool
  | revoked id' => id = id'
  | _ => false

variable {crates : Crates} {ι : Type}

def Reported (t : List (Label (api crates) ι)) (change : Change) : Prop :=
  ∃ i operation e, .exchanged i operation e ∈ t ∧ reported e = some change

def DestroyCalled (t : List (Label (api crates) ι)) (id : UniqueIdentifier) : Prop :=
  ∃ i pool, .called i (ApiCall.destroy id pool) ∈ t

/-- What holds of the server's keys in every state of a run. -/
structure Kept (s₀ : Store) (t : List (Label (api crates) ι)) (s : Store) : Prop where
  grows : ∀ id, s₀ id ≠ none → s id ≠ none
  untouched : ∀ id state, s₀ id = some state → s id = some state ∨ DestroyCalled t id
  created : ∀ payload, Reported t (.created payload) → Fresh s₀ payload ∧
    s payload.privateKeyUniqueIdentifier ≠ none ∧
    s payload.publicKeyUniqueIdentifier = some .PreActive
  separate : ∀ payload payload', Reported t (.created payload) → Reported t (.created payload') →
    payload.privateKeyUniqueIdentifier ≠ payload'.publicKeyUniqueIdentifier
  createdOnce : ∀ id, t.countP (Label.exchanges (reports (Change.creates id))) ≤ 1
  activated : ∀ id, Reported t (.activated id) → s id = some .Active ∨ DestroyCalled t id
  ended : ∀ id, Reported t (.revoked id) → s id = some .Deactivated ∨ s id = some .Destroyed
  revokedOnce : ∀ id, t.countP (Label.exchanges (reports (Change.revokes id))) ≤ 1
  destroyed : ∀ id, Reported t (.destroyed id) → s id = some .Destroyed

/-- What has to have happened before a change is asked for. -/
def Grounded (t : List (Label (api crates) ι)) : Change → Prop
  | .created _ => True
  | .activated id => ∃ payload, Reported t (.created payload) ∧
      id = payload.privateKeyUniqueIdentifier
  | .revoked id => DestroyCalled t id
  | .destroyed id => DestroyCalled t id ∧ Reported t (.revoked id)

section Labels

variable {t : List (Label (api crates) ι)} {change : Change}

theorem DestroyCalled.append {id : UniqueIdentifier} (h : DestroyCalled t id)
    (l : Label (api crates) ι) : DestroyCalled (t ++ [l]) id := by
  obtain ⟨i, pool, hmem⟩ := h
  exact ⟨i, pool, List.mem_append_left _ hmem⟩

theorem Reported.of_append {i : ι} {operation : ApiCall} {e : Exchange}
    (h : Reported (t ++ [.exchanged i operation e]) change) :
    Reported t change ∨ reported e = some change := by
  obtain ⟨j, operation', e', hmem, hreported⟩ := h
  rcases List.mem_append.mp hmem with hmem | hmem
  · exact Or.inl ⟨j, operation', e', hmem, hreported⟩
  · obtain ⟨rfl, rfl, rfl⟩ : j = i ∧ operation' = operation ∧ e' = e := by simpa using hmem
    exact Or.inr hreported

/-- Nothing is exchanged, or the answer reports nothing. -/
def Silent (l : Label (api crates) ι) : Prop := ∀ p, Label.exchanges (reports p) l = false

theorem Reported.of_silent {l : Label (api crates) ι} (hl : Silent l)
    (h : Reported (t ++ [l]) change) : Reported t change := by
  obtain ⟨i, operation, e, hmem, hreported⟩ := h
  rcases List.mem_append.mp hmem with hmem | hmem
  · exact ⟨i, operation, e, hmem, hreported⟩
  · obtain rfl := List.mem_singleton.mp hmem
    have hreports : reports (fun _ => true) e = true :=
      reports_eq_true_iff.mpr ⟨change, hreported, rfl⟩
    exact Bool.noConfusion (hreports.symm.trans (hl _))

theorem countP_eq_zero_of_not_reported {p : Change → Bool}
    (h : ∀ change, p change = true → ¬ Reported t change) :
    t.countP (Label.exchanges (reports p)) = 0 := by
  rw [List.countP_eq_zero]
  rintro (_ | ⟨i, operation, e⟩ | _) hl hp
  · exact Bool.noConfusion hp
  · obtain ⟨change, hreported, hp⟩ := reports_eq_true_iff.mp hp
    exact h change hp ⟨i, operation, e, hl, hreported⟩
  · exact Bool.noConfusion hp

end Labels

section Steps

variable {s₀ s s' : Store} {t : List (Label (api crates) ι)}

theorem kept_start (s₀ : Store) : Kept s₀ ([] : List (Label (api crates) ι)) s₀ := by
  have hnone : ∀ change, ¬ Reported ([] : List (Label (api crates) ι)) change := by
    rintro change ⟨i, operation, e, hmem, _⟩
    exact List.not_mem_nil hmem
  constructor
  · exact fun id h => h
  · exact fun id state h => Or.inl h
  · exact fun payload h => (hnone _ h).elim
  · exact fun payload payload' h => (hnone _ h).elim
  · exact fun id => Nat.zero_le 1
  · exact fun id h => (hnone _ h).elim
  · exact fun id h => (hnone _ h).elim
  · exact fun id => Nat.zero_le 1
  · exact fun id h => (hnone _ h).elim

theorem Kept.silent (hkept : Kept s₀ t s) {l : Label (api crates) ι} (hl : Silent l) :
    Kept s₀ (t ++ [l]) s := by
  have hcount : ∀ p, (t ++ [l]).countP (Label.exchanges (reports p)) =
      t.countP (Label.exchanges (reports p)) := by
    intro p
    simp [List.countP_append, hl p]
  constructor
  · exact hkept.grows
  · exact fun id state h => (hkept.untouched id state h).imp_right fun h => h.append l
  · exact fun payload h => hkept.created payload (h.of_silent hl)
  · exact fun payload payload' h h' => hkept.separate payload payload' (h.of_silent hl)
      (h'.of_silent hl)
  · exact fun id => (hcount _).trans_le (hkept.createdOnce id)
  · exact fun id h => (hkept.activated id (h.of_silent hl)).imp_right fun h => h.append l
  · exact fun id h => hkept.ended id (h.of_silent hl)
  · exact fun id => (hcount _).trans_le (hkept.revokedOnce id)
  · exact fun id h => hkept.destroyed id (h.of_silent hl)

section Exchange

variable {i : ι} {operation : ApiCall} {e : Exchange} {change : Change}
  (hkept : Kept s₀ t s) (hgrounded : Grounded t change) (happlies : Applies s change s')
  (hreported : reported e = none ∨ reported e = some change)

include hreported in
theorem reported_or_eq {change' : Change}
    (h : Reported (t ++ [.exchanged i operation e]) change') :
    Reported t change' ∨ change' = change := by
  rcases h.of_append with h | h
  · exact Or.inl h
  · rcases hreported with hnone | hsome
    · simp [hnone] at h
    · exact Or.inr (Option.some.inj (h.symm.trans hsome))

include hkept hgrounded happlies

theorem untouched_step {id : UniqueIdentifier} {state : KeyState} (h : s₀ id = some state) :
    s' id = some state ∨ DestroyCalled (t ++ [.exchanged i operation e]) id := by
  rcases hkept.untouched id state h with hs | hcalled
  · have hturns := happlies.turns id
    rw [hs] at hturns
    rcases hturns.of_some with hsame | rfl | rfl | rfl
    · exact Or.inl hsame
    · -- A key that `generate` activates is new.
      obtain ⟨payload, hpayload, rfl⟩ := hgrounded
      rw [(hkept.created payload hpayload).1.noPrivate] at h
      simp at h
    · exact Or.inr (DestroyCalled.append hgrounded _)
    · exact Or.inr (hgrounded.1.append _)
  · exact Or.inr (hcalled.append _)

theorem public_step {payload : CreateKeyPairResponsePayload}
    (h : Reported t (.created payload)) :
    s' payload.publicKeyUniqueIdentifier = some .PreActive := by
  obtain ⟨_, _, hpublic⟩ := hkept.created payload h
  have hturns := happlies.turns payload.publicKeyUniqueIdentifier
  rw [hpublic] at hturns
  rcases hturns.of_some with hsame | rfl | rfl | rfl
  · exact hsame
  · obtain ⟨payload', hpayload', heq⟩ := hgrounded
    exact (hkept.separate payload' payload hpayload' h heq.symm).elim
  · cases happlies with
    | revoked active =>
        rw [hpublic] at active
        simp at active
  · rcases hkept.ended _ hgrounded.2 with hended | hended
    · simp [hpublic] at hended
    · simp [hpublic] at hended

omit hkept hgrounded happlies in
include hreported in
/-- What has not been reported before is reported once. -/
theorem once_step {p : Change → Bool} (hold : t.countP (Label.exchanges (reports p)) ≤ 1)
    (hnew : p change = true → ∀ change', p change' = true → ¬ Reported t change') :
    List.countP (Label.exchanges (reports p)) (t ++ [.exchanged i operation e]) ≤ 1 := by
  by_cases hp : reports p e = true
  · obtain ⟨change', hsome, hp'⟩ := reports_eq_true_iff.mp hp
    obtain rfl : change' = change := by
      rcases hreported with hnone | hchange
      · simp [hnone] at hsome
      · exact Option.some.inj (hsome.symm.trans hchange)
    have hzero := countP_eq_zero_of_not_reported (hnew hp')
    simp [List.countP_append, hzero, Label.exchanges, hp]
  · simpa [List.countP_append, Label.exchanges, hp] using hold

end Exchange

theorem Kept.change {i : ι} {operation : ApiCall} {e : Exchange} {change : Change}
    (hkept : Kept s₀ t s) (hgrounded : Grounded t change) (happlies : Applies s change s')
    (hreported : reported e = none ∨ reported e = some change) :
    Kept s₀ (t ++ [.exchanged i operation e]) s' := by
  have hfresh : ∀ payload, change = .created payload → Fresh s payload := by
    rintro payload rfl
    cases happlies with
    | created fresh => exact fresh
  have hpresent : ∀ payload, Reported t (.created payload) →
      s payload.privateKeyUniqueIdentifier ≠ none ∧ s payload.publicKeyUniqueIdentifier ≠ none := by
    intro payload h
    obtain ⟨_, hprivate, hpublic⟩ := hkept.created payload h
    exact ⟨hprivate, by simp [hpublic]⟩
  constructor
  · exact fun id h => (happlies.turns id).ne_none (hkept.grows id h)
  · exact fun id state h => untouched_step hkept hgrounded happlies h
  · intro payload h
    rcases reported_or_eq hreported h with h | heq
    · obtain ⟨hfresh, hprivate, _⟩ := hkept.created payload h
      exact ⟨hfresh, (happlies.turns _).ne_none hprivate,
        public_step hkept hgrounded happlies h⟩
    · have hnew := hfresh payload heq.symm
      subst heq
      cases happlies
      refine ⟨⟨?_, ?_, hnew.distinct⟩, ?_, Store.set_same ..⟩
      · by_contra h
        exact hkept.grows _ h hnew.noPrivate
      · by_contra h
        exact hkept.grows _ h hnew.noPublic
      · rw [Store.add, Store.set_of_ne hnew.distinct, Store.set_same]
        simp
  · intro payload payload' h h'
    rcases reported_or_eq hreported h with h | heq <;>
      rcases reported_or_eq hreported h' with h' | heq'
    · exact hkept.separate payload payload' h h'
    · intro hid
      exact (hpresent payload h).1 (hid ▸ (hfresh payload' heq'.symm).noPublic)
    · intro hid
      exact (hpresent payload' h').2 (hid ▸ (hfresh payload heq.symm).noPrivate)
    · obtain rfl : payload = payload' := Change.created.inj (heq.trans heq'.symm)
      exact (hfresh payload heq.symm).distinct
  · intro id
    refine once_step hreported (hkept.createdOnce id) ?_
    intro hcreates change' hcreates' hbefore
    cases change with
    | created payload =>
        have hnew := hfresh payload rfl
        cases change' with
        | created payload' =>
            have hold := hpresent payload' hbefore
            simp only [Change.creates, decide_eq_true_eq] at hcreates hcreates'
            have hnone : s id = none := by
              rcases hcreates with rfl | rfl
              · exact hnew.noPrivate
              · exact hnew.noPublic
            rcases hcreates' with rfl | rfl
            · exact hold.1 hnone
            · exact hold.2 hnone
        | _ => exact Bool.noConfusion hcreates'
    | _ => exact Bool.noConfusion hcreates
  · intro id h
    rcases reported_or_eq hreported h with h | heq
    · rcases hkept.activated id h with hactive | hcalled
      · have hturns := happlies.turns id
        rw [hactive] at hturns
        rcases hturns.of_active with hsame | ⟨rfl, _⟩
        · exact Or.inl hsame
        · exact Or.inr (DestroyCalled.append hgrounded _)
      · exact Or.inr (hcalled.append _)
    · subst heq
      cases happlies
      exact Or.inl (Store.set_same ..)
  · intro id h
    rcases reported_or_eq hreported h with h | heq
    · exact (happlies.turns id).of_ended (hkept.ended id h)
    · subst heq
      cases happlies
      exact Or.inl (Store.set_same ..)
  · intro id
    refine once_step hreported (hkept.revokedOnce id) ?_
    intro hrevokes change' hrevokes' hbefore
    cases happlies with
    | revoked active =>
        cases change' with
        | revoked id' =>
            simp only [Change.revokes, decide_eq_true_eq] at hrevokes hrevokes'
            subst hrevokes hrevokes'
            rcases hkept.ended _ hbefore with hended | hended
            · simp [active] at hended
            · simp [active] at hended
        | _ => exact Bool.noConfusion hrevokes'
    | _ => exact Bool.noConfusion hrevokes
  · intro id h
    rcases reported_or_eq hreported h with h | heq
    · have hturns := happlies.turns id
      rw [hkept.destroyed id h] at hturns
      exact hturns.of_destroyed
    · subst heq
      cases happlies
      exact Store.set_same ..

/-- Who may ask for a change has what it takes in the run. -/
theorem grounded_of_mayChange {i : ι} {operation : ApiCall} {h : List Exchange}
    {change : Change} (hcalled : .called i operation ∈ t)
    (hreports : ∀ change' ∈ changes h, Reported t change')
    (hmay : MayChange operation h change) : Grounded t change := by
  cases operation with
  | generate publicKeyName privateKeyName params flags connPool =>
      cases change with
      | created payload => trivial
      | activated id =>
          obtain ⟨payload, hmem, hid⟩ := hmay
          exact ⟨payload, hreports _ hmem, hid⟩
      | _ => exact hmay.elim
  | destroy keyId connPool =>
      cases change with
      | revoked id =>
          obtain rfl : id = keyId := hmay
          exact ⟨i, connPool, hcalled⟩
      | destroyed id =>
          obtain ⟨rfl, hmem⟩ := hmay
          exact ⟨⟨i, connPool, hcalled⟩, hreports _ hmem⟩
      | _ => exact hmay.elim
  | _ => cases change <;> exact hmay.elim

theorem reported_of_changes {i : ι} {operation : ApiCall} {h : List Exchange}
    (hevents : ∀ e ∈ h, .exchanged i operation e ∈ t) :
    ∀ change ∈ changes h, Reported t change := by
  intro change hmem
  obtain ⟨e, he, hreported⟩ := List.mem_filterMap.mp hmem
  exact ⟨i, operation, e, hevents e he, hreported⟩

/-- Whatever the callers do, the protocol of each operation keeps the keys. -/
theorem kept_of_permits [DecidableEq ι] {views : ι → View (api crates)}
    (hrun : (lifecycle crates).Permits Faulty s₀ t views s) : Kept s₀ t s := by
  induction hrun with
  | start => exact kept_start s₀
  | call run operation idle ih => exact ih.silent fun _ => rfl
  | @exchange t views s i operation h call reply s' run busy allowed step ih =>
      rcases Faulty.changes step with ⟨hnone, rfl⟩ | ⟨change, hasks, happlies, hreported⟩
      · refine ih.silent fun p => ?_
        simp [Label.exchanges, reports, hnone]
      · obtain ⟨hcalled, hevents⟩ := run.exchanged_mem busy
        have hgrounded := grounded_of_mayChange hcalled (reported_of_changes hevents)
          (allowed change hasks)
        exact ih.change hgrounded happlies hreported
  | finish run busy post ih => exact ih.silent fun _ => rfl

end Steps

def handsOut (id : UniqueIdentifier) : (operation : ApiCall) → operation.Result → Bool
  | .generate .., .ok keyPair => id = keyPair.privateKeyId ∨ id = keyPair.publicKeyId
  | _, _ => false

def destroys (id : UniqueIdentifier) : (operation : ApiCall) → operation.Result → Bool
  | .destroy keyId _, .ok _ => id = keyId
  | _, _ => false

theorem mints_of_mem_changes {h : List Exchange} {change : Change} (hmem : change ∈ changes h)
    {p : Change → Bool} (hp : p change = true) : ∃ e ∈ h, reports p e = true := by
  obtain ⟨e, he, hreported⟩ := List.mem_filterMap.mp hmem
  exact ⟨e, he, reports_eq_true_iff.mpr ⟨change, hreported, hp⟩⟩

variable [DecidableEq ι] {s₀ : Store} {t : List (Label (api crates) ι)}
  {sys : System (api crates) ι Store}

/-- The key pairs that `generate` returns are new and no two of them share a key. The
private half is active until somebody calls `destroy` on it, and the public half stays
as it was created. Keys of others are not touched. -/
theorem generated_keys_last (hrun : Runs Faulty s₀ t sys) :
    (∀ i publicKeyName privateKeyName params flags pool keyPair,
      .returned i (ApiCall.generate publicKeyName privateKeyName params flags pool)
        (Outcome.ok keyPair) ∈ t →
      Fresh s₀ ⟨keyPair.privateKeyId, keyPair.publicKeyId⟩ ∧
        (sys.state keyPair.privateKeyId = some .Active ∨
          DestroyCalled t keyPair.privateKeyId) ∧
        sys.state keyPair.publicKeyId = some .PreActive) ∧
      (∀ id, t.countP (Label.returns (handsOut id)) ≤ 1) ∧
      ∀ id state, s₀ id = some state → sys.state id = some state ∨ DestroyCalled t id := by
  have hpermits := hrun.permits (lifecycle_governs crates)
  have hkept := kept_of_permits hpermits
  refine ⟨?_, fun id => ?_, hkept.untouched⟩
  · intro i publicKeyName privateKeyName params flags pool keyPair hmem
    obtain ⟨h, ⟨payload, hcreated, hactivated, hprivate, hpublic⟩, hevents⟩ :=
      hpermits.post_of_returned hmem
    obtain ⟨hfresh, _, hpreActive⟩ :=
      hkept.created payload (reported_of_changes hevents _ hcreated)
    rw [hprivate, hpublic]
    exact ⟨hfresh, hkept.activated _ (reported_of_changes hevents _ hactivated), hpreActive⟩
  · refine hpermits.spent_le_one ?_ (hkept.createdOnce id)
    intro operation a h hpost hhands
    cases operation with
    | generate publicKeyName privateKeyName params flags connPool =>
        cases a with
        | ok keyPair =>
            obtain ⟨payload, hcreated, _, hprivate, hpublic⟩ := hpost
            refine mints_of_mem_changes hcreated ?_
            rwa [handsOut, hprivate, hpublic] at hhands
        | _ => exact Bool.noConfusion hhands
    | _ => exact Bool.noConfusion hhands

/-- However many callers try to destroy a key, one of them at most succeeds, and then
the key is destroyed and stays so. -/
theorem destroyed_once (hrun : Runs Faulty s₀ t sys) (id : UniqueIdentifier) :
    t.countP (Label.returns (destroys id)) ≤ 1 ∧
      (0 < t.countP (Label.returns (destroys id)) → sys.state id = some .Destroyed) := by
  have hpermits := hrun.permits (lifecycle_governs crates)
  have hkept := kept_of_permits hpermits
  constructor
  · refine hpermits.spent_le_one ?_ (hkept.revokedOnce id)
    intro operation a h hpost hdestroys
    cases operation with
    | destroy keyId connPool =>
        cases a with
        | ok _ => exact mints_of_mem_changes hpost.1 hdestroys
        | _ => exact Bool.noConfusion hdestroys
    | _ => exact Bool.noConfusion hdestroys
  · intro hpos
    obtain ⟨l, hl, hdestroys⟩ := List.countP_pos_iff.mp hpos
    cases l with
    | returned i operation a =>
        obtain ⟨h, hpost, hevents⟩ := hpermits.post_of_returned hl
        cases operation with
        | destroy keyId connPool =>
            cases a with
            | ok _ =>
                obtain rfl : id = keyId := of_decide_eq_true hdestroys
                exact hkept.destroyed id (reported_of_changes hevents _ hpost.2)
            | _ => exact Bool.noConfusion hdestroys
        | _ => exact Bool.noConfusion hdestroys
    | _ => exact Bool.noConfusion hdestroys

def generation : ApiCall := .generate "public" "private" .Ed25519 257 samplePool

def destruction : ApiCall := .destroy "private" samplePool

def labels (i : Bool) (operation : ApiCall) (s : Store) : List (Label (api sampleCrates) Bool) :=
  Label.alone (honestServer willingKey) i operation s

def after (operation : ApiCall) (s : Store) : Store :=
  ((operation.program sampleCrates).run (honestServer willingKey) s).2

/-- One caller generates the key pair and another one destroys its private half. -/
theorem runs_generation_destruction :
    Runs Faulty Store.empty (labels true generation Store.empty ++
        labels false destruction (after generation Store.empty))
      ⟨fun _ => none, after destruction (after generation Store.empty)⟩ := by
  have hstart : Runs Faulty Store.empty ([] : List (Label (api sampleCrates) Bool))
    ⟨fun _ => none, Store.empty⟩ := .start
  have hgenerated := hstart.trace (i := true) (honestServer_faulty willingKey) rfl generation
  exact hgenerated.trace (i := false) (honestServer_faulty willingKey) rfl destruction

theorem generation_lasts :
    Fresh Store.empty ⟨"private", "public"⟩ ∧
      after destruction (after generation Store.empty) "public" = some .PreActive := by
  obtain ⟨hgenerated, _⟩ := generated_keys_last runs_generation_destruction
  obtain ⟨hfresh, _, hpublic⟩ := hgenerated true "public" "private" .Ed25519 257 samplePool
    willingKeyPair (List.mem_append_left _ (Label.returned_mem_alone (I := api sampleCrates) true
      generation Store.empty))
  exact ⟨hfresh, hpublic⟩

theorem destruction_happens_once :
    (labels true generation Store.empty ++
        labels false destruction (after generation Store.empty)).countP
      (Label.returns (destroys "private")) = 1 ∧
      after destruction (after generation Store.empty) "private" = some .Destroyed := by
  obtain ⟨honce, hdestroyed⟩ := destroyed_once runs_generation_destruction "private"
  have hpos : 0 < (labels true generation Store.empty ++
      labels false destruction (after generation Store.empty)).countP
        (Label.returns (destroys "private")) :=
    List.countP_pos_iff.mpr ⟨.returned false destruction (.ok ()),
      List.mem_append_right _ (Label.returned_mem_alone (I := api sampleCrates) false
        destruction _), rfl⟩
  exact ⟨Nat.le_antisymm honce hpos, hdestroyed hpos⟩

end DomainKmip.ConcurrentKeys
