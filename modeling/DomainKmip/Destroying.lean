import DomainKmip.KeyStore

namespace DomainKmip.Destroying

open DomainKmip.Library.RustResult
open DomainKmip.Library.Interaction
open DomainKmip.Domain
open DomainKmip.Kmip
open DomainKmip.Dependencies
open DomainKmip.Errors
open DomainKmip.Client
open DomainKmip.KeyPairs
open DomainKmip.SigningSafety
open DomainKmip.Generate
open DomainKmip.GenerateSafety
open DomainKmip.KeyStore

variable (crates : Crates)

/-- Calls to the crate, one after the other, against a server behind connections that
may fail. -/
inductive Calls : Store → List Exchange → Store → Prop
  | nil (s : Store) : Calls s [] s
  | generate {s s₁ s' : Store} {t t' : List Exchange} (publicKeyName privateKeyName : String)
      (params : GenerateParams) (flags : UInt16) (pool : ConnPool)
      {outcome : Outcome GenerateError KeyPair}
      (run : (generate crates publicKeyName privateKeyName params flags pool).program.Admits t
        outcome) (steps : Steps Faulty s t s₁) (rest : Calls s₁ t' s') : Calls s (t ++ t') s'
  | destroy {s s₁ s' : Store} {t t' : List Exchange} (keyId : String) (pool : ConnPool)
      {outcome : Outcome DestroyError Unit}
      (run : (destroy crates keyId pool).program.Admits t outcome)
      (steps : Steps Faulty s t s₁) (rest : Calls s₁ t' s') : Calls s (t ++ t') s'

/-- A key that the server would let be destroyed, at once or after a revocation. -/
def Destroyable (s : Store) (id : UniqueIdentifier) : Prop :=
  s id = some .PreActive ∨ s id = some .Active ∨ s id = some .Deactivated

/-- Over a working connection, `destroy` returns `Ok` and destroys the key. -/
def DestroyWorks (s : Store) (id : UniqueIdentifier) : Prop :=
  ∀ pool t outcome s', (destroy crates id pool).program.Admits t outcome →
    Steps Working s t s' → outcome = .ok () ∧ s' id = some .Destroyed

variable {crates} {s s' : Store} {pool : ConnPool} {id : UniqueIdentifier}

/-- Calls of which only the state of the server is looked at. -/
def anyCallAt (_ : Store) (_ : Call) : Prop := True

theorem Faulty.revokes {reply : Except NetError Unit}
    (h : Faulty s (.revokeKey pool id) reply s') :
    s' = s ∨ s id = some .Active ∧ s' = s.set id .Deactivated := by
  cases h with
  | served h =>
      cases h with
      | revokeKey _ active => exact Or.inr ⟨active, rfl⟩
  | refused _ hstore => exact Or.inl hstore
  | failed _ hstore =>
      rcases hstore with hstore | ⟨_, h⟩
      · exact Or.inl hstore
      · cases h with
        | revokeKey _ active => exact Or.inr ⟨active, rfl⟩

theorem Faulty.revokes_of_ok (h : Faulty s (.revokeKey pool id) (.ok ()) s') :
    s id = some .Active ∧ s' = s.set id .Deactivated := by
  cases h with
  | served h =>
      cases h with
      | revokeKey _ active => exact ⟨active, rfl⟩
  | refused h _ => exact h.elim
  | failed h _ => exact h.elim

theorem Faulty.destroys {reply : Except NetError Unit}
    (h : Faulty s (.destroyKey pool id) reply s') : s' = s ∨ s' = s.set id .Destroyed := by
  cases h with
  | served h =>
      cases h
      exact Or.inr rfl
  | refused _ hstore => exact Or.inl hstore
  | failed _ hstore =>
      rcases hstore with hstore | ⟨_, h⟩
      · exact Or.inl hstore
      · cases h
        exact Or.inr rfl

/-- What a run of `destroy` leaves behind: only an active key is changed. -/
inductive Destroys (s : Store) (id : UniqueIdentifier) : Store → Prop
  | unchanged : Destroys s id s
  | changed (active : s id = some .Active) (state : KeyState) : Destroys s id (s.set id state)

theorem Store.set_set (s : Store) (id : UniqueIdentifier) (state state' : KeyState) :
    (s.set id state).set id state' = s.set id state' := Function.update_idem ..

theorem destroy_destroys :
    (destroy crates id pool).Meets Faulty anyCallAt (fun _ s' => Destroys s id s') s := by
  rw [destroy, Action.meets_withClient]
  refine ⟨trivial, ?_, ?_⟩
  · intro err s' hs
    rw [hs.store_eq_of_passive trivial]
    exact .unchanged
  · intro s₁ hs
    obtain rfl := hs.store_eq_of_passive trivial
    have hrelease : ∀ {s₂}, Destroys s₁ id s₂ → anyCallAt s₂ (.release pool) ∧
        ∀ s', Faulty s₂ (.release pool) () s' → Destroys s₁ id s' := by
      intro s₂ hdestroys
      refine ⟨trivial, fun s' hs => ?_⟩
      rwa [hs.store_eq_of_passive trivial]
    rw [Action.meets_bind, Action.meets_revokeKey]
    refine ⟨trivial, ?_⟩
    rintro (err | ⟨⟩) s₂ hs
    · rcases Faulty.revokes hs with rfl | ⟨active, rfl⟩
      · exact hrelease .unchanged
      · exact hrelease (.changed active .Deactivated)
    · obtain ⟨active, rfl⟩ := Faulty.revokes_of_ok hs
      rw [Action.andThen, Action.meets_bind, Action.meets_lift, Outcome.ofExcept_ok,
        Action.andThen, Action.meets_bind, Action.meets_destroyKey]
      refine ⟨trivial, ?_⟩
      intro reply s₃ hs
      rcases Faulty.destroys hs with rfl | rfl
      · cases reply <;> exact hrelease (.changed active .Deactivated)
      · rw [Store.set_set]
        cases reply <;> exact hrelease (.changed active .Destroyed)

theorem destroyWorks_of_active (hactive : s id = some .Active) : DestroyWorks crates s id := by
  intro pool t outcome s' hrun hsteps
  have hmeets : (destroy crates id pool).Meets Working anyCallAt
      (fun o s' => o = .ok () ∧ s' id = some .Destroyed) s := by
    rw [destroy, Action.meets_withClient]
    refine ⟨trivial, ?_, ?_⟩
    · intro err s' hs
      cases hs with
      | served h => cases h
      | refused h _ _ => exact h.elim
    · intro s₁ hs
      obtain rfl := hs.faulty.store_eq_of_passive trivial
      rw [Action.meets_bind, Action.meets_revokeKey]
      refine ⟨trivial, ?_⟩
      intro reply s₂ hs
      have hrevoked : reply = .ok () ∧ s₂ = s₁.set id .Deactivated := by
        cases hs with
        | served h =>
            cases h
            exact ⟨rfl, rfl⟩
        | refused _ _ forbidden => exact (forbidden _ _ (.revokeKey pool hactive)).elim
      obtain ⟨rfl, rfl⟩ := hrevoked
      rw [Action.andThen, Action.meets_bind, Action.meets_lift, Outcome.ofExcept_ok,
        Action.andThen, Action.meets_bind, Action.meets_destroyKey]
      refine ⟨trivial, ?_⟩
      intro reply s₃ hs
      have hdeactivated : s₁.set id .Deactivated id = some .Deactivated := Store.set_same ..
      have hdestroyed : reply = .ok () ∧ s₃ = (s₁.set id .Deactivated).set id .Destroyed := by
        cases hs with
        | served h =>
            cases h
            exact ⟨rfl, rfl⟩
        | refused _ _ forbidden =>
            exact (forbidden _ _ (.destroyKey pool (Or.inr hdeactivated))).elim
      obtain ⟨rfl, rfl⟩ := hdestroyed
      refine ⟨trivial, fun s' hs => ⟨rfl, ?_⟩⟩
      rw [hs.faulty.store_eq_of_passive trivial, Store.set_same]
  exact hmeets.post_of_admits hrun hsteps

def refusal (id : UniqueIdentifier) : List Exchange :=
  [⟨.connect samplePool, .ok ()⟩,
    ⟨.revokeKey samplePool id, .error (.ServerError "wrong state")⟩,
    ⟨.release samplePool, ()⟩]

/-- The revocation of any other key is refused, and with it the call. -/
theorem not_destroyWorks_of_not_active (hactive : s id ≠ some .Active) :
    ¬ DestroyWorks crates s id := by
  intro h
  have hrefused : Working s (.revokeKey samplePool id) (.error (.ServerError "wrong state")) s := by
    refine .refused trivial rfl fun _ _ hserves => ?_
    cases hserves with
    | revokeKey _ active => exact hactive active
  have hsteps : Steps Working s (refusal id) s :=
    .cons (.served (.connect samplePool)) (.cons hrefused
      (.cons (.served (.release samplePool)) (.nil s)))
  have hrun : (destroy crates id samplePool).program.Admits (refusal id)
      (.err (DestroyError.ofNetError crates (.ServerError "wrong state"))) :=
    .call _ (.call _ (.call _ (.done _)))
  exact nomatch (h samplePool _ _ s hrun hsteps).1

theorem destroyWorks_iff : DestroyWorks crates s id ↔ s id = some .Active := by
  constructor
  · intro h
    by_contra hactive
    exact not_destroyWorks_of_not_active hactive h
  · exact destroyWorks_of_active

theorem Creates.keeps {keys : List CreateKeyPairResponsePayload} (h : Creates s keys s')
    (hid : s id ≠ none) : s' id = s id := by
  have hadd : ∀ {payload state}, Fresh s payload → s.add payload state id = s id := by
    intro payload state fresh
    have hprivate : id ≠ payload.privateKeyUniqueIdentifier := by
      rintro rfl
      exact hid fresh.noPrivate
    have hpublic : id ≠ payload.publicKeyUniqueIdentifier := by
      rintro rfl
      exact hid fresh.noPublic
    rw [Store.add, Store.set_of_ne hpublic, Store.set_of_ne hprivate]
  cases h with
  | requested h =>
      cases h with
      | unchanged => rfl
      | unconfirmed fresh => exact hadd fresh
      | confirmed fresh => exact hadd fresh
  | activated fresh => exact hadd fresh

theorem Creates.preActive {keys : List CreateKeyPairResponsePayload} (h : Creates s keys s') :
    s' = s ∨ ∃ id, s' id = some .PreActive := by
  cases h with
  | requested h =>
      cases h with
      | unchanged => exact Or.inl rfl
      | unconfirmed _ => exact Or.inr ⟨_, Store.set_same ..⟩
      | confirmed _ => exact Or.inr ⟨_, Store.set_same ..⟩
  | activated _ => exact Or.inr ⟨_, Store.set_same ..⟩

theorem Destroys.keeps {keyId : UniqueIdentifier} (h : Destroys s keyId s')
    (hid : s id ≠ some .Active) : s' id = s id := by
  cases h with
  | unchanged => rfl
  | changed active state =>
      refine Store.set_of_ne ?_ state
      rintro rfl
      exact hid active

theorem destroys_of_run {keyId : String} {t : List Exchange}
    {outcome : Outcome DestroyError Unit}
    (hrun : (destroy crates keyId pool).program.Admits t outcome) (hsteps : Steps Faulty s t s') :
    Destroys s keyId s' :=
  destroy_destroys.post_of_admits hrun hsteps

/-- Where there are keys, one of them was never activated: the public half of the pair
that was created first. -/
theorem Calls.preActive {t : List Exchange} (h : Calls crates s t s')
    (hs : (∀ id, s id = none) ∨ ∃ id, s id = some .PreActive) :
    (∀ id, s' id = none) ∨ ∃ id, s' id = some .PreActive := by
  induction h with
  | nil s => exact hs
  | generate _ _ _ _ _ hrun hsteps _ ih =>
      apply ih
      have hcreates := creates_of_run hrun hsteps
      rcases hs with hs | ⟨id, hid⟩
      · rcases Creates.preActive hcreates with rfl | hpreActive
        · exact Or.inl hs
        · exact Or.inr hpreActive
      · exact Or.inr ⟨id, (Creates.keeps hcreates (by simp [hid])).trans hid⟩
  | destroy _ _ hrun hsteps _ ih =>
      apply ih
      have hdestroys := destroys_of_run hrun hsteps
      rcases hs with hs | ⟨id, hid⟩
      · refine Or.inl fun id => ?_
        rw [Destroys.keeps hdestroys (by simp [hs]), hs]
      · exact Or.inr ⟨id, (Destroys.keeps hdestroys (by simp [hid])).trans hid⟩

/-- In every state that calls to the crate lead to, `destroy` works for the active keys
and for no others, so that it works for all keys only as long as there are none. -/
theorem destroy_works_iff {t : List Exchange} (h : Calls crates Store.empty t s) :
    (∀ id, DestroyWorks crates s id ↔ s id = some .Active) ∧
      ((∀ id, Destroyable s id → DestroyWorks crates s id) ↔ ∀ id, s id = none) := by
  refine ⟨fun id => destroyWorks_iff, ?_⟩
  constructor
  · intro hworks
    rcases h.preActive (Or.inl fun _ => rfl) with hnone | ⟨id, hid⟩
    · exact hnone
    · have := destroyWorks_iff.mp (hworks id (Or.inl hid))
      rw [hid] at this
      exact nomatch this
  · intro hnone id hdestroyable
    rcases hdestroyable with h | h | h <;> rw [hnone id] at h <;> exact nomatch h

def generated : Action GenerateError KeyPair :=
  generate sampleCrates "public" "private" .Ed25519 257 samplePool

def generatedTrace : List Exchange :=
  generated.program.trace (honestServer willingKey) Store.empty

def generatedStore : Store := (generated.program.run (honestServer willingKey) Store.empty).2

theorem calls_generated :
    Calls sampleCrates Store.empty (generatedTrace ++ []) generatedStore :=
  .generate _ _ _ _ _ (Program.admits_trace generated.program Store.empty)
    (Program.steps_trace (honestServer_faulty willingKey) generated.program Store.empty)
    (.nil generatedStore)

theorem halves_of_generated_key_pair :
    DestroyWorks sampleCrates generatedStore "private" ∧
      ¬ DestroyWorks sampleCrates generatedStore "public" := by
  obtain ⟨hworks, _⟩ := destroy_works_iff calls_generated
  rw [hworks, hworks]
  exact ⟨rfl, nofun⟩

theorem generated_public_key_is_stuck :
    generated.program.Admits generatedTrace (.ok willingKeyPair) ∧
      Steps Faulty Store.empty generatedTrace generatedStore ∧
      Destroyable generatedStore willingKeyPair.publicKeyId ∧
      ¬ DestroyWorks sampleCrates generatedStore willingKeyPair.publicKeyId :=
  ⟨Program.admits_trace generated.program Store.empty,
    Program.steps_trace (honestServer_faulty willingKey) generated.program Store.empty,
    Or.inl rfl, not_destroyWorks_of_not_active nofun⟩

end DomainKmip.Destroying
