import DomainKmip.GenerateSafety

/-!
The key store of a server that follows the KMIP key lifecycle, with connections that
may fail at any request, and what generating and destroying keys leaves in it.
-/

namespace DomainKmip.KeyStore

open DomainKmip.Library.RustResult
open DomainKmip.Library.Interaction
open DomainKmip.Domain
open DomainKmip.Kmip
open DomainKmip.Dependencies
open DomainKmip.Errors
open DomainKmip.Algorithms
open DomainKmip.Client
open DomainKmip.KeyPairs
open DomainKmip.SigningSafety
open DomainKmip.Generate
open DomainKmip.GenerateSafety

inductive KeyState where
  | PreActive
  | Active
  | Deactivated
  | Destroyed
  deriving DecidableEq, Repr

/-- The state of each key; there is no key under an id that was never given out. -/
abbrev Store := UniqueIdentifier → Option KeyState

def Store.empty : Store := fun _ => none

def Store.set (s : Store) (id : UniqueIdentifier) (state : KeyState) : Store :=
  Function.update s id (some state)

@[simp] theorem Store.set_same (s : Store) (id : UniqueIdentifier) (state : KeyState) :
    s.set id state id = some state := Function.update_self ..

theorem Store.set_of_ne {s : Store} {id id' : UniqueIdentifier} (h : id' ≠ id)
    (state : KeyState) : s.set id state id' = s id' := Function.update_of_ne h ..

/-- The store with the two halves of a new key pair. The public half stays as it was
created. -/
def Store.add (s : Store) (payload : CreateKeyPairResponsePayload) (state : KeyState) : Store :=
  (s.set payload.privateKeyUniqueIdentifier state).set payload.publicKeyUniqueIdentifier
    .PreActive

structure Fresh (s : Store) (payload : CreateKeyPairResponsePayload) : Prop where
  noPrivate : s payload.privateKeyUniqueIdentifier = none
  noPublic : s payload.publicKeyUniqueIdentifier = none
  distinct : payload.privateKeyUniqueIdentifier ≠ payload.publicKeyUniqueIdentifier

/-- The server carries out a request and answers it. -/
inductive Serves (s : Store) : (call : Call) → Reply call → Store → Prop
  | connect (pool : ConnPool) : Serves s (.connect pool) (.ok ()) s
  | release (pool : ConnPool) : Serves s (.release pool) () s
  | query (pool : ConnPool) (response : QueryResponsePayload) :
      Serves s (.query pool) (.ok response) s
  | createKeyPair (pool : ConnPool) (common privateKey publicKey : Option (List Attribute))
      {payload : CreateKeyPairResponsePayload} (fresh : Fresh s payload) :
      Serves s (.doRequestPayload pool (.CreateKeyPair common privateKey publicKey))
        (.ok (.ok (.CreateKeyPair payload))) (s.add payload .PreActive)
  | activate (pool : ConnPool) {id : UniqueIdentifier} (preActive : s id = some .PreActive) :
      Serves s (.doRequestPayload pool (.Activate (some id))) (.ok (.ok (.Activate id)))
        (s.set id .Active)
  | sign (pool : ConnPool) (id : Option UniqueIdentifier)
      (parameters : Option CryptographicParameters) (data : List UInt8)
      (signed : SignResponsePayload) :
      Serves s (.doRequestPayload pool (.Sign id parameters data)) (.ok (.ok (.Sign signed))) s
  | batch (pool : ConnPool) (queue : List BatchItem)
      (items : List (Except NetError BatchItemResponse)) :
      Serves s (.doRequestBatch pool queue) (.ok items) s
  | getKey (pool : ConnPool) (id : UniqueIdentifier) (object : ManagedObject) :
      Serves s (.getKey pool id) (.ok object) s
  | revokeKey (pool : ConnPool) {id : UniqueIdentifier} (active : s id = some .Active) :
      Serves s (.revokeKey pool id) (.ok ()) (s.set id .Deactivated)
  | destroyKey (pool : ConnPool) {id : UniqueIdentifier}
      (permitted : s id = some .PreActive ∨ s id = some .Deactivated) :
      Serves s (.destroyKey pool id) (.ok ()) (s.set id .Destroyed)

/-- The server reports an error: it has not carried out the request. -/
def Refused : (call : Call) → Reply call → Prop
  | .query _, .error _ => True
  | .doRequestPayload .., .ok (.error (.ServerError _)) => True
  | .doRequestBatch .., .error _ => True
  | .getKey .., .error _ => True
  | .revokeKey .., .error _ => True
  | .destroyKey .., .error _ => True
  | _, _ => False

def answers : RequestPayload → ResponsePayload → Bool
  | .CreateKeyPair .., .CreateKeyPair _ => true
  | .Activate _, .Activate _ => true
  | .Sign .., .Sign _ => true
  | _, _ => false

/-- The caller is not told whether the request was carried out: there is no
connection, it fails before or after the request, or the answer is of no use. -/
def Failed : (call : Call) → Reply call → Prop
  | .connect _, .error _ => True
  | .query _, .error _ => True
  | .doRequestPayload .., .error _ => True
  | .doRequestPayload .., .ok (.error (.other _)) => True
  | .doRequestPayload _ request, .ok (.ok payload) => answers request payload = false
  | .doRequestBatch .., .error _ => True
  | .getKey .., .error _ => True
  | .revokeKey .., .error _ => True
  | .destroyKey .., .error _ => True
  | _, _ => False

/-- A server behind connections that may fail. -/
inductive Faulty (s : Store) (call : Call) (reply : Reply call) (s' : Store) : Prop
  | served (h : Serves s call reply s')
  | refused (h : Refused call reply) (hstore : s' = s)
  | failed (h : Failed call reply)
      (hstore : s' = s ∨ ∃ reply', Serves s call reply' s')

/-- A server behind working connections: it carries out what the lifecycle permits and
reports an error otherwise. -/
inductive Working (s : Store) (call : Call) (reply : Reply call) (s' : Store) : Prop
  | served (h : Serves s call reply s')
  | refused (h : Refused call reply) (hstore : s' = s)
      (forbidden : ∀ reply' s'', ¬ Serves s call reply' s'')

theorem Working.faulty {s s' : Store} {call : Call} {reply : Reply call}
    (h : Working s call reply s') : Faulty s call reply s' := by
  cases h with
  | served h => exact .served h
  | refused h hstore _ => exact .refused h hstore

def Passive : Call → Prop
  | .connect _ | .release _ | .query _ | .getKey .. => True
  | _ => False

theorem Serves.store_eq_of_passive {s s' : Store} {call : Call} {reply : Reply call}
    (h : Serves s call reply s') (hpassive : Passive call) : s' = s := by
  cases h <;> first | rfl | exact hpassive.elim

theorem Faulty.store_eq_of_passive {s s' : Store} {call : Call} {reply : Reply call}
    (h : Faulty s call reply s') (hpassive : Passive call) : s' = s := by
  cases h with
  | served h => exact h.store_eq_of_passive hpassive
  | refused _ hstore => exact hstore
  | failed _ hstore =>
      rcases hstore with hstore | ⟨reply', h⟩
      · exact hstore
      · exact h.store_eq_of_passive hpassive

/-- What asking for a key pair leaves behind, given the key pairs that were
confirmed. -/
inductive Requests (s : Store) : List CreateKeyPairResponsePayload → Store → Prop
  | unchanged : Requests s [] s
  | unconfirmed {payload : CreateKeyPairResponsePayload} (fresh : Fresh s payload) :
      Requests s [] (s.add payload .PreActive)
  | confirmed {payload : CreateKeyPairResponsePayload} (fresh : Fresh s payload) :
      Requests s [payload] (s.add payload .PreActive)

inductive Creates (s : Store) : List CreateKeyPairResponsePayload → Store → Prop
  | requested {keys : List CreateKeyPairResponsePayload} {s' : Store} (h : Requests s keys s') :
      Creates s keys s'
  | activated {payload : CreateKeyPairResponsePayload} (fresh : Fresh s payload) :
      Creates s [payload] (s.add payload .Active)

section Requests

variable {crates : Crates} {s s' : Store} {pool : ConnPool}

variable (crates) in
theorem Faulty.requests {common privateKey publicKey : Option (List Attribute)}
    {reply : Except NetError (Except NetError ResponsePayload)}
    (h : Faulty s (.doRequestPayload pool (.CreateKeyPair common privateKey publicKey)) reply s') :
    Requests s (keysOf (Outcome.ofExcept (GenerateError.ofNetError crates) reply)) s' := by
  cases h with
  | served h =>
      cases h with
      | createKeyPair _ _ _ _ fresh => exact .confirmed fresh
  | refused h hstore =>
      rcases reply with _ | err | _
      · exact h.elim
      · rw [hstore]
        exact .unchanged
      · exact h.elim
  | failed h hstore =>
      have hkeys : keysOf (Outcome.ofExcept (GenerateError.ofNetError crates) reply) = [] := by
        rcases reply with _ | err | payload
        · rfl
        · rfl
        · cases payload <;> first | rfl | exact Bool.noConfusion h
      rw [hkeys]
      rcases hstore with rfl | ⟨_, h⟩
      · exact .unchanged
      · cases h with
        | createKeyPair _ _ _ _ fresh => exact .unconfirmed fresh

/-- After a server error the store is as it was, so that the second request starts
afresh. -/
theorem Faulty.store_eq_of_serverError {request : RequestPayload} {err : String}
    (h : Faulty s (.doRequestPayload pool request) (.ok (.error (.ServerError err))) s') :
    s' = s := by
  cases h with
  | served h => cases h
  | refused _ hstore => exact hstore
  | failed h _ => exact h.elim

theorem Faulty.activates {id : UniqueIdentifier}
    {reply : Except NetError (Except NetError ResponsePayload)}
    (h : Faulty s (.doRequestPayload pool (.Activate (some id))) reply s') :
    s' = s ∨ s' = s.set id .Active := by
  cases h with
  | served h =>
      cases h
      exact Or.inr rfl
  | refused _ hstore => exact Or.inl hstore
  | failed _ hstore =>
      rcases hstore with hstore | ⟨_, h⟩
      · exact Or.inl hstore
      · cases h
        exact Or.inr rfl

end Requests

abbrev Situation := List Exchange × Store

def anyCall (_ : Situation) (_ : Call) : Prop := True

section Generate

variable {crates : Crates} {params : GenerateParams} {pool : ConnPool} {h : List Exchange}
  {s : Store}

theorem meets_sendRequest_faulty {request : RequestPayload}
    {post : Outcome GenerateError (Except NetError ResponsePayload) → Situation → Prop} :
    (sendRequest crates pool request).Meets (withHistory Faulty) anyCall post (h, s) ↔
      ∀ reply s', Faulty s (.doRequestPayload pool request) reply s' →
        post (Outcome.ofExcept (GenerateError.ofNetError crates) reply)
          (h ++ [⟨.doRequestPayload pool request, reply⟩], s') := by
  rw [sendRequest, Action.meets_bind, Action.meets_doRequestPayload]
  constructor
  · rintro ⟨_, hpost⟩ reply s' hs
    exact hpost reply (_, s') ⟨rfl, hs⟩
  · refine fun hpost => ⟨trivial, ?_⟩
    rintro reply ⟨_, s'⟩ ⟨rfl, hs⟩
    exact hpost reply s' hs

theorem passive_step {call : Call} {reply : Reply call} {situation : Situation}
    (hs : withHistory Faulty (h, s) call reply situation) (hpassive : Passive call) :
    confirmed situation.1 = confirmed h ∧ situation.2 = s := by
  obtain ⟨hhistory, hfaulty⟩ := hs
  refine ⟨?_, hfaulty.store_eq_of_passive hpassive⟩
  rw [hhistory, confirmed_append]
  cases call <;> first | exact List.append_nil _ | exact hpassive.elim

theorem requireEdxxxSupport_keeps :
    (requireEdxxxSupport crates params pool).Meets (withHistory Faulty) anyCall
      (fun _ situation => confirmed situation.1 = confirmed h ∧ situation.2 = s) (h, s) := by
  rw [requireEdxxxSupport]
  split
  · rw [Action.meets_bind, Action.meets_query]
    refine ⟨trivial, ?_⟩
    rintro reply situation hs
    have hkept := passive_step hs trivial
    rw [Action.andThen, Action.meets_bind, Action.meets_lift]
    cases reply with
    | error err => exact hkept
    | ok response =>
        rw [Outcome.ofExcept_ok, Action.andThen]
        split
        · exact hkept
        · exact hkept
  · exact ⟨rfl, rfl⟩

theorem createKeyPair_requests (hkeys : confirmed h = []) (alg : AlgorithmInfo)
    (commonAttrs privateKeyAttrs publicKeyAttrs : List Attribute) :
    (createKeyPair crates alg commonAttrs privateKeyAttrs publicKeyAttrs pool).Meets
      (withHistory Faulty) anyCall (fun o situation =>
        confirmed situation.1 = keysOf o ∧ Requests s (keysOf o) situation.2) (h, s) := by
  rw [createKeyPair, Action.meets_bind, meets_sendRequest_faulty]
  intro reply s' hs
  have hrequests := hs.requests crates
  have hconfirmed : confirmed (h ++ [⟨.doRequestPayload pool (.CreateKeyPair (some commonAttrs)
      (some privateKeyAttrs) (some publicKeyAttrs)), reply⟩]) =
        keysOf (Outcome.ofExcept (GenerateError.ofNetError crates) reply) := by
    rw [confirmed_append_creation crates, hkeys]
    rfl
  rcases reply with err | response
  · exact ⟨hconfirmed, hrequests⟩
  · rw [Outcome.ofExcept_ok, Action.andThen]
    split
    · rename_i err curve _
      obtain rfl := hs.store_eq_of_serverError
      rw [meets_sendRequest_faulty]
      intro reply' s'' hs'
      refine ⟨?_, hs'.requests crates⟩
      rw [confirmed_append_creation crates, hconfirmed]
      rfl
    · exact ⟨hconfirmed, hrequests⟩

theorem requestKeyPair_requests (publicKeyName privateKeyName : String)
    (hkeys : confirmed h = []) :
    (requestKeyPair crates publicKeyName privateKeyName params pool).Meets (withHistory Faulty)
      anyCall (fun o situation => confirmed situation.1 = responseKeys o ∧
        Requests s (responseKeys o) situation.2) (h, s) := by
  rw [requestKeyPair, Action.meets_bind]
  apply requireEdxxxSupport_keeps.mono
  rintro (_ | err | _) ⟨h', s'⟩ ⟨hh', rfl⟩
  · rw [Action.andThen, Action.meets_bind, Action.meets_lift]
    cases lengthAttributes (selectAlgorithm params).1 (selectAlgorithm params).2 with
    | ok attributes =>
        rw [Action.andThen, Action.meets_bind]
        apply (createKeyPair_requests (hh'.trans hkeys) _ _ _ _).mono
        rintro ((err | payload) | err | _) situation hcreated
        · exact hcreated
        · cases payload <;> exact hcreated
        · exact hcreated
        · exact hcreated
    | err e => exact ⟨hh'.trans hkeys, .unchanged⟩
    | panic => exact ⟨hh'.trans hkeys, .unchanged⟩
  · exact ⟨hh'.trans hkeys, .unchanged⟩
  · exact ⟨hh'.trans hkeys, .unchanged⟩

theorem fetch_keeps {publicKeyId : String} {algorithm : SecurityAlgorithm} :
    (PublicKeys.forKeyIdAndDnssecAlgorithm crates publicKeyId algorithm pool).Meets
      (withHistory Faulty) anyCall
      (fun _ situation => confirmed situation.1 = confirmed h ∧ situation.2 = s) (h, s) := by
  rw [PublicKeys.forKeyIdAndDnssecAlgorithm, Action.meets_withClient]
  refine ⟨trivial, fun err situation hs => passive_step hs trivial, ?_⟩
  rintro ⟨h₁, s₁⟩ hs
  obtain ⟨hh₁, rfl⟩ := passive_step hs trivial
  rw [Action.meets_bind, Action.meets_getKey]
  refine ⟨trivial, ?_⟩
  rintro reply ⟨h₂, s₂⟩ hs
  obtain ⟨hh₂, rfl⟩ := passive_step hs trivial
  have hrelease : ∀ situation, withHistory Faulty (h₂, s₂) (.release pool) () situation →
      confirmed situation.1 = confirmed h ∧ situation.2 = s₂ := by
    intro situation hs
    obtain ⟨hh₃, hstore⟩ := passive_step hs trivial
    exact ⟨hh₃.trans (hh₂.trans hh₁), hstore⟩
  cases reply with
  | error err => exact ⟨trivial, hrelease⟩
  | ok object => exact ⟨trivial, hrelease⟩

theorem fromMetadata_keeps {flags : UInt16} {privateKeyId publicKeyId : String}
    {algorithm : SecurityAlgorithm} :
    (fromMetadata crates algorithm flags privateKeyId publicKeyId pool).Meets
      (withHistory Faulty) anyCall
      (fun _ situation => confirmed situation.1 = confirmed h ∧ situation.2 = s) (h, s) := by
  rw [fromMetadata, Action.meets_bind, Action.meets_mapErr]
  apply fetch_keeps.mono
  rintro (key | err | _) situation hkept
  · rw [Outcome.mapErr, Action.andThen, Action.meets_bind, Action.meets_lift]
    rcases (PublicKeys.dnskey key flags : Outcome GenerateError Dnskey) with _ | _ | _ <;>
      exact hkept
  · exact hkept
  · exact hkept

theorem Store.add_set_private {payload : CreateKeyPairResponsePayload} (fresh : Fresh s payload) :
    (s.add payload .PreActive).set payload.privateKeyUniqueIdentifier .Active =
      s.add payload .Active := by
  rw [Store.add, Store.set, Store.set, Store.set, Function.update_comm fresh.distinct.symm,
    Function.update_idem]
  rfl

theorem activate_creates {payload : CreateKeyPairResponsePayload} (fresh : Fresh s payload) :
    (activate crates payload.privateKeyUniqueIdentifier pool).Meets (withHistory Faulty) anyCall
      (fun _ situation => confirmed situation.1 = confirmed h ∧
        Creates s [payload] situation.2) (h, s.add payload .PreActive) := by
  rw [activate, Action.meets_bind, meets_sendRequest_faulty]
  intro reply s' hs
  have hcreates : Creates s [payload] s' := by
    rcases hs.activates with rfl | rfl
    · exact .requested (.confirmed fresh)
    · rw [Store.add_set_private fresh]
      exact .activated fresh
  have hkept : confirmed (h ++ [⟨.doRequestPayload pool
      (.Activate (some payload.privateKeyUniqueIdentifier)), reply⟩]) = confirmed h := by
    rw [confirmed_append]
    exact List.append_nil _
  rcases reply with err | err | response
  · exact ⟨hkept, hcreates⟩
  · exact ⟨hkept, hcreates⟩
  · rw [Outcome.ofExcept_ok, Action.andThen, Action.meets_bind, Action.meets_lift,
      Outcome.ofExcept_ok, Action.andThen]
    cases response <;> exact ⟨hkept, hcreates⟩

theorem locateAndActivate_creates {flags : UInt16} {algorithm : SecurityAlgorithm}
    {payload : CreateKeyPairResponsePayload} (fresh : Fresh s payload)
    (hkeys : confirmed h = [payload]) :
    (locateAndActivate crates algorithm flags pool payload).Meets (withHistory Faulty) anyCall
      (fun _ situation => Creates s (confirmed situation.1) situation.2)
      (h, s.add payload .PreActive) := by
  rw [locateAndActivate, Action.meets_bind, Action.meets_mapErr]
  apply fromMetadata_keeps.mono
  rintro o ⟨h₁, s₁⟩ ⟨hh₁, rfl⟩
  rw [hkeys] at hh₁
  have hcreated : Creates s (confirmed h₁) (s.add payload .PreActive) := by
    rw [hh₁]
    exact .requested (.confirmed fresh)
  rcases o with keyPair | err | _
  · rw [Outcome.mapErr, Action.andThen, Action.meets_bind, Action.meets_withClient]
    refine ⟨trivial, ?_, ?_⟩
    · rintro err ⟨h₂, s₂⟩ hs
      obtain ⟨hh₂, rfl⟩ := passive_step hs trivial
      rwa [← hh₂] at hcreated
    · rintro ⟨h₂, s₂⟩ hs
      obtain ⟨hh₂, rfl⟩ := passive_step hs trivial
      apply (activate_creates fresh).mono
      rintro o ⟨h₃, s₃⟩ ⟨hh₃, hcreates⟩
      refine ⟨trivial, ?_⟩
      rintro ⟨h₄, s₄⟩ hs
      obtain ⟨hh₄, rfl⟩ := passive_step hs trivial
      have hend : Creates s (confirmed h₄) s₄ := by
        rw [hh₄, hh₃, hh₂, hh₁]
        exact hcreates
      cases o <;> exact hend
  · exact hcreated
  · exact hcreated

/-- Whatever fails, a run of `generate` adds the two halves of one key pair or
nothing, and changes no other key. -/
theorem generate_creates (publicKeyName privateKeyName : String) (flags : UInt16) :
    (generate crates publicKeyName privateKeyName params flags pool).Meets (withHistory Faulty)
      anyCall (fun _ situation => Creates s (confirmed situation.1) situation.2) ([], s) := by
  rw [generate, Action.meets_bind, Action.meets_withClient]
  refine ⟨trivial, ?_, ?_⟩
  · rintro err ⟨h₁, s₁⟩ hs
    obtain ⟨hh₁, rfl⟩ := passive_step hs trivial
    have hcreated : Creates s₁ (confirmed h₁) s₁ := by
      rw [hh₁]
      exact .requested .unchanged
    exact hcreated
  · rintro ⟨h₁, s₁⟩ hs
    obtain ⟨hh₁, rfl⟩ := passive_step hs trivial
    apply (requestKeyPair_requests publicKeyName privateKeyName hh₁).mono
    rintro o ⟨h₂, s₂⟩ ⟨hh₂, hrequests⟩
    refine ⟨trivial, ?_⟩
    rintro ⟨h₃, s₃⟩ hs
    obtain ⟨hh₃, rfl⟩ := passive_step hs trivial
    have hkeys : confirmed h₃ = responseKeys o := hh₃.trans hh₂
    have hcreated : Creates s₁ (confirmed h₃) s₃ := by
      rw [hkeys]
      exact .requested hrequests
    rcases o with response | err | _
    · rw [Action.andThen, Action.meets_bind, Action.meets_lift]
      cases response with
      | CreateKeyPair payload =>
          cases hrequests with
          | confirmed fresh => exact locateAndActivate_creates fresh hkeys
      | _ => exact hcreated
    · exact hcreated
    · exact hcreated

end Generate

theorem creates_of_run {crates : Crates} {publicKeyName privateKeyName : String}
    {params : GenerateParams} {flags : UInt16} {pool : ConnPool} {t : List Exchange}
    {outcome : Outcome GenerateError KeyPair} {s s' : Store}
    (hrun : (generate crates publicKeyName privateKeyName params flags pool).program.Admits t
      outcome) (hsteps : Steps Faulty s t s') : Creates s (confirmed t) s' :=
  (generate_creates publicKeyName privateKeyName flags).post_of_admits hrun
    (hsteps.withHistory [])

theorem Store.of_set_eq {s : Store} {id id' : UniqueIdentifier} {state state' : KeyState}
    (h : s.set id' state id = some state') : id = id' ∧ state = state' ∨ s id = some state' := by
  by_cases hid : id = id'
  · subst hid
    rw [Store.set_same] at h
    exact Or.inl ⟨rfl, Option.some.inj h⟩
  · rw [Store.set_of_ne hid] at h
    exact Or.inr h

theorem Serves.activated {s s' : Store} {call : Call} {reply : Reply call}
    (h : Serves s call reply s') {id : UniqueIdentifier} (hactive : s' id = some .Active) :
    s id = some .Active ∨ ∃ pool, call = .doRequestPayload pool (.Activate (some id)) := by
  cases h with
  | createKeyPair pool common privateKey publicKey fresh =>
      rcases Store.of_set_eq hactive with ⟨_, h⟩ | hactive
      · cases h
      · rcases Store.of_set_eq hactive with ⟨_, h⟩ | hactive
        · cases h
        · exact Or.inl hactive
  | activate pool preActive =>
      rcases Store.of_set_eq hactive with ⟨rfl, _⟩ | hactive
      · exact Or.inr ⟨pool, rfl⟩
      · exact Or.inl hactive
  | revokeKey pool active =>
      rcases Store.of_set_eq hactive with ⟨_, h⟩ | hactive
      · cases h
      · exact Or.inl hactive
  | destroyKey pool permitted =>
      rcases Store.of_set_eq hactive with ⟨_, h⟩ | hactive
      · cases h
      · exact Or.inl hactive
  | _ => exact Or.inl hactive

theorem Faulty.activated {s s' : Store} {call : Call} {reply : Reply call}
    (h : Faulty s call reply s') {id : UniqueIdentifier} (hactive : s' id = some .Active) :
    s id = some .Active ∨ ∃ pool, call = .doRequestPayload pool (.Activate (some id)) := by
  cases h with
  | served h => exact h.activated hactive
  | refused _ hstore => exact Or.inl (hstore ▸ hactive)
  | failed _ hstore =>
      rcases hstore with hstore | ⟨_, h⟩
      · exact Or.inl (hstore ▸ hactive)
      · exact h.activated hactive

/-- A key becomes active by a request to activate it. -/
theorem activated_of_steps {s s' : Store} {t : List Exchange} (h : Steps Faulty s t s')
    {id : UniqueIdentifier} (hactive : s' id = some .Active) :
    s id = some .Active ∨
      ∃ pool reply, ⟨.doRequestPayload pool (.Activate (some id)), reply⟩ ∈ t := by
  induction h with
  | nil s => exact Or.inl hactive
  | @cons _ _ _ call reply t head _ ih =>
      rcases ih hactive with hactive | ⟨pool, reply', hmem⟩
      · rcases head.activated hactive with hactive | ⟨pool, rfl⟩
        · exact Or.inl hactive
        · exact Or.inr ⟨pool, reply, List.mem_cons_self⟩
      · exact Or.inr ⟨pool, reply', List.mem_cons_of_mem _ hmem⟩

/-- Calls that take no key out of use. -/
def Gentle : Call → Prop
  | .revokeKey .. | .destroyKey .. => False
  | _ => True

theorem Serves.active {s s' : Store} {call : Call} {reply : Reply call}
    (h : Serves s call reply s') (hgentle : Gentle call) {id : UniqueIdentifier}
    (hactive : s id = some .Active) : s' id = some .Active := by
  cases h with
  | @createKeyPair pool common privateKey publicKey payload fresh =>
      have hprivate : id ≠ payload.privateKeyUniqueIdentifier := by
        rintro rfl
        simp [fresh.noPrivate] at hactive
      have hpublic : id ≠ payload.publicKeyUniqueIdentifier := by
        rintro rfl
        simp [fresh.noPublic] at hactive
      rw [Store.add, Store.set_of_ne hpublic, Store.set_of_ne hprivate, hactive]
  | @activate pool id' preActive =>
      by_cases hid : id = id'
      · rw [hid, Store.set_same]
      · rw [Store.set_of_ne hid, hactive]
  | revokeKey pool active => exact hgentle.elim
  | destroyKey pool permitted => exact hgentle.elim
  | _ => exact hactive

theorem Faulty.active {s s' : Store} {call : Call} {reply : Reply call}
    (h : Faulty s call reply s') (hgentle : Gentle call) {id : UniqueIdentifier}
    (hactive : s id = some .Active) : s' id = some .Active := by
  cases h with
  | served h => exact h.active hgentle hactive
  | refused _ hstore => rw [hstore, hactive]
  | failed _ hstore =>
      rcases hstore with hstore | ⟨_, h⟩
      · rw [hstore, hactive]
      · exact h.active hgentle hactive

theorem Faulty.active_of_acknowledged {s s' : Store} {pool : ConnPool} {id id' : UniqueIdentifier}
    (h : Faulty s (.doRequestPayload pool (.Activate (some id))) (.ok (.ok (.Activate id'))) s') :
    s' id = some .Active := by
  cases h with
  | served h =>
      cases h
      exact Store.set_same ..
  | refused h _ => exact h.elim
  | failed h _ => exact Bool.noConfusion h

/-- What was active, or was acknowledged to be, stays so as long as nobody takes keys out of
use. -/
theorem active_of_steps {s s' : Store} {t : List Exchange} (h : Steps Faulty s t s')
    (hgentle : ∀ e ∈ t, Gentle e.call) {id : UniqueIdentifier}
    (hactive : s id = some .Active ∨ Acknowledged t id) : s' id = some .Active := by
  induction h with
  | nil s =>
      rcases hactive with hactive | ⟨_, _, hmem⟩
      · exact hactive
      · simp at hmem
  | @cons s s₁ s' call reply t head _ ih =>
      apply ih fun e hmem => hgentle e (List.mem_cons_of_mem _ hmem)
      rcases hactive with hactive | ⟨pool, id', hmem⟩
      · exact Or.inl (head.active (hgentle _ List.mem_cons_self) hactive)
      · rcases List.mem_cons.mp hmem with heq | hmem
        · cases heq
          exact Or.inl head.active_of_acknowledged
        · exact Or.inr ⟨pool, id', hmem⟩

theorem gentle_of_generate {crates : Crates} {publicKeyName privateKeyName : String}
    {params : GenerateParams} {flags : UInt16} {pool : ConnPool} {t : List Exchange}
    {outcome : Outcome GenerateError KeyPair}
    (hrun : (generate crates publicKeyName privateKeyName params flags pool).program.Admits t
      outcome) : ∀ e ∈ t, Gentle e.call := by
  intro e hmem
  obtain ⟨before, after, heq⟩ := List.append_of_mem hmem
  have hallowed := (sound_of_meets_history
    (generate_meets crates publicKeyName privateKeyName params flags pool) hrun).2 before e after heq
  generalize e.call = call at hallowed
  cases call with
  | revokeKey => exact hallowed.elim
  | destroyKey => exact hallowed.elim
  | _ => trivial

theorem Store.add_private {s : Store} {payload : CreateKeyPairResponsePayload}
    (fresh : Fresh s payload) (state : KeyState) :
    s.add payload state payload.privateKeyUniqueIdentifier = some state := by
  rw [Store.add, Store.set_of_ne fresh.distinct, Store.set_same]

theorem Fresh.activated {s s' : Store} {payload : CreateKeyPairResponsePayload}
    (fresh : Fresh s payload) {t : List Exchange} (h : Steps Faulty s t s')
    (hstore : s' = s.add payload .Active) :
    ∃ pool reply, ⟨.doRequestPayload pool
      (.Activate (some payload.privateKeyUniqueIdentifier)), reply⟩ ∈ t := by
  have hactive : s' payload.privateKeyUniqueIdentifier = some .Active := by
    rw [hstore, Store.add_private fresh]
  exact (activated_of_steps h hactive).resolve_left (by simp [fresh.noPrivate])

theorem state_of_creates {s s' : Store} {keys : List CreateKeyPairResponsePayload}
    (h : Creates s keys s') {payload : CreateKeyPairResponsePayload} (hmem : payload ∈ keys) :
    Fresh s payload ∧ ∃ state, (state = .PreActive ∨ state = .Active) ∧
      s' = s.add payload state := by
  cases h with
  | requested h =>
      cases h with
      | unchanged => simp at hmem
      | unconfirmed => simp at hmem
      | confirmed fresh =>
          obtain rfl := List.mem_singleton.mp hmem
          exact ⟨fresh, .PreActive, Or.inl rfl, rfl⟩
  | activated fresh =>
      obtain rfl := List.mem_singleton.mp hmem
      exact ⟨fresh, .Active, Or.inr rfl, rfl⟩

/-- The keys that the server confirmed stay in its store, whatever `generate` returns,
and they are all that changes. The private key is active only where its activation was
asked for, and always where that was acknowledged. -/
theorem generate_leaves_confirmed_keys {crates : Crates} {publicKeyName privateKeyName : String}
    {params : GenerateParams} {flags : UInt16} {pool : ConnPool} {t : List Exchange}
    {outcome : Outcome GenerateError KeyPair} {s s' : Store}
    {payload : CreateKeyPairResponsePayload}
    (hrun : (generate crates publicKeyName privateKeyName params flags pool).program.Admits t
      outcome) (hsteps : Steps Faulty s t s') (hconfirmed : payload ∈ confirmed t) :
    Fresh s payload ∧ ∃ state, (state = .PreActive ∨ state = .Active ∧
        ∃ pool reply, ⟨.doRequestPayload pool
          (.Activate (some payload.privateKeyUniqueIdentifier)), reply⟩ ∈ t) ∧
      (Acknowledged t payload.privateKeyUniqueIdentifier → state = .Active) ∧
      s' = s.add payload state := by
  obtain ⟨fresh, state, hstate, hstore⟩ := state_of_creates (creates_of_run hrun hsteps) hconfirmed
  refine ⟨fresh, state, ?_, fun hacknowledged => ?_, hstore⟩
  · rcases hstate with rfl | rfl
    · exact Or.inl rfl
    · exact Or.inr ⟨rfl, fresh.activated hsteps hstore⟩
  · have hactive := active_of_steps hsteps (gentle_of_generate hrun) (Or.inr hacknowledged)
    rw [hstore, Store.add_private fresh] at hactive
    exact Option.some.inj hactive

/-- A server that does what the lifecycle permits, as long as it has ids to give; it
returns the same object to every Get request. -/
def honestServer (object : ManagedObject) (s : Store) : (call : Call) → Reply call × Store
  | .connect _ => (.ok (), s)
  | .release _ => ((), s)
  | .query _ => (.ok ⟨some [⟨edxxxExtension⟩]⟩, s)
  | .doRequestPayload _ (.CreateKeyPair ..) =>
      if s "private" = none ∧ s "public" = none then
        (.ok (.ok (.CreateKeyPair ⟨"private", "public"⟩)), s.add ⟨"private", "public"⟩ .PreActive)
      else (.ok (.error (.ServerError "no more keys")), s)
  | .doRequestPayload _ (.Activate (some id)) =>
      if s id = some .PreActive then (.ok (.ok (.Activate id)), s.set id .Active)
      else (.ok (.error (.ServerError "wrong state")), s)
  | .doRequestPayload _ (.Activate none) => (.ok (.error (.ServerError "no id")), s)
  | .doRequestPayload _ (.Sign _ _ data) => (.ok (.ok (.Sign ⟨data⟩)), s)
  | .doRequestBatch .. => (.ok [], s)
  | .getKey .. => (.ok object, s)
  | .revokeKey _ id =>
      if s id = some .Active then (.ok (), s.set id .Deactivated)
      else (.error (.ServerError "wrong state"), s)
  | .destroyKey _ id =>
      if s id = some .PreActive ∨ s id = some .Deactivated then (.ok (), s.set id .Destroyed)
      else (.error (.ServerError "wrong state"), s)

theorem honestServer_faulty (object : ManagedObject) (s : Store) (call : Call) :
    Faulty s call (honestServer object s call).1 (honestServer object s call).2 := by
  cases call with
  | connect pool => exact .served (.connect pool)
  | release pool => exact .served (.release pool)
  | query pool => exact .served (.query pool _)
  | doRequestPayload pool request =>
      cases request with
      | CreateKeyPair common privateKey publicKey =>
          rw [honestServer]
          split
          · rename_i hfree
            exact .served (.createKeyPair pool _ _ _ ⟨hfree.1, hfree.2, by decide⟩)
          · exact .refused trivial rfl
      | Activate id =>
          cases id with
          | none => exact .refused trivial rfl
          | some id =>
              rw [honestServer]
              split
              · rename_i hpreActive
                exact .served (.activate pool hpreActive)
              · exact .refused trivial rfl
      | Sign id parameters data => exact .served (.sign pool _ _ _ _)
  | doRequestBatch pool queue => exact .served (.batch pool queue [])
  | getKey pool id => exact .served (.getKey pool id object)
  | revokeKey pool id =>
      rw [honestServer]
      split
      · rename_i hactive
        exact .served (.revokeKey pool hactive)
      · exact .refused trivial rfl
  | destroyKey pool id =>
      rw [honestServer]
      split
      · rename_i hpermitted
        exact .served (.destroyKey pool hpermitted)
      · exact .refused trivial rfl

def secret : ManagedObject := .other 2

def failingGenerate : Action GenerateError KeyPair :=
  generate sampleCrates "public" "private" (.RsaSha256 2048) 257 samplePool

def failingTrace : List Exchange :=
  failingGenerate.program.trace (honestServer secret) Store.empty

theorem failing_generate_leaves_keys : ∃ e s',
    failingGenerate.program.Admits failingTrace (.err e) ∧
    Steps Faulty Store.empty failingTrace s' ∧ confirmed failingTrace = [⟨"private", "public"⟩] ∧
    s' "private" = some .PreActive ∧ s' "public" = some .PreActive :=
  ⟨_, _, Program.admits_trace failingGenerate.program Store.empty,
    Program.steps_trace (honestServer_faulty secret) failingGenerate.program Store.empty,
    rfl, rfl, rfl⟩

theorem failing_generate_leaves_nothing_else :
    Fresh Store.empty ⟨"private", "public"⟩ ∧ ∃ state, (state = .PreActive ∨ state = .Active ∧
        ∃ pool reply, ⟨.doRequestPayload pool (.Activate (some "private")), reply⟩ ∈
          failingTrace) ∧
      (Acknowledged failingTrace "private" → state = .Active) ∧
      (failingGenerate.program.run (honestServer secret) Store.empty).2 =
        Store.empty.add ⟨"private", "public"⟩ state :=
  generate_leaves_confirmed_keys
    (Program.admits_trace failingGenerate.program Store.empty)
    (Program.steps_trace (honestServer_faulty secret) failingGenerate.program Store.empty)
    (List.mem_singleton_self _)

end DomainKmip.KeyStore
