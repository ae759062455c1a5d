import DomainKmip.Library.Interaction
import Mathlib.Data.DFinsupp.WellFounded
import Mathlib.Logic.Relation
import Mathlib.SetTheory.Cardinal.Order

namespace DomainKmip.Library.Concurrency

open DomainKmip.Library.Interaction

universe u v w x y

/-- Operations, each with the program that it runs. -/
structure Interface (Call : Type u) (Reply : Call → Type v) where
  Operation : Type w
  Result : Operation → Type w
  program : (operation : Operation) → Program Call Reply (Result operation)

variable {Call : Type u} {Reply : Call → Type v} {I : Interface.{u, v, w} Call Reply}
  {ι : Type x} {σ : Type y}

inductive Label (I : Interface.{u, v, w} Call Reply) (ι : Type x) where
  | called (caller : ι) (operation : I.Operation)
  | exchanged (caller : ι) (operation : I.Operation) (event : Event Call Reply)
  | returned (caller : ι) (operation : I.Operation) (result : I.Result operation)

/-- An operation that has not returned: what it has exchanged, and the rest of its
program. -/
structure Running (I : Interface.{u, v, w} Call Reply) where
  operation : I.Operation
  exchanged : List (Event Call Reply)
  rest : Program Call Reply (I.Result operation)

structure System (I : Interface.{u, v, w} Call Reply) (ι : Type x) (σ : Type y) where
  callers : ι → Option (Running I)
  state : σ

section Runs

variable [DecidableEq ι]

/-- The runs of a system that starts with all callers idle. Each makes one operation after
the other, whichever it likes, and their exchanges interleave in any order. -/
inductive Runs (env : Environment Call Reply σ) (s₀ : σ) : List (Label I ι) → System I ι σ → Prop
  | start : Runs env s₀ [] ⟨fun _ => none, s₀⟩
  | call {t : List (Label I ι)} {sys : System I ι σ} {i : ι} (run : Runs env s₀ t sys)
      (operation : I.Operation) (idle : sys.callers i = none) :
      Runs env s₀ (t ++ [.called i operation])
        ⟨Function.update sys.callers i (some ⟨operation, [], I.program operation⟩), sys.state⟩
  | exchange {t : List (Label I ι)} {sys : System I ι σ} {i : ι} {operation : I.Operation}
      {h : List (Event Call Reply)} {c : Call} {next : Reply c → Program Call Reply _} {r : Reply c}
      {s' : σ} (run : Runs env s₀ t sys)
      (busy : sys.callers i = some ⟨operation, h, .call c next⟩) (step : env sys.state c r s') :
      Runs env s₀ (t ++ [.exchanged i operation ⟨c, r⟩])
        ⟨Function.update sys.callers i (some ⟨operation, h ++ [⟨c, r⟩], next r⟩), s'⟩
  | finish {t : List (Label I ι)} {sys : System I ι σ} {i : ι} {operation : I.Operation}
      {h : List (Event Call Reply)} {a : I.Result operation} (run : Runs env s₀ t sys)
      (busy : sys.callers i = some ⟨operation, h, .done a⟩) :
      Runs env s₀ (t ++ [.returned i operation a])
        ⟨Function.update sys.callers i none, sys.state⟩

end Runs

section Alone

variable [DecidableEq ι] {env : Environment Call Reply σ} {s₀ s s' : σ} {t : List (Label I ι)}
  {callers : ι → Option (Running I)} {i : ι} {operation : I.Operation}
  {es : List (Event Call Reply)} {a : I.Result operation}

theorem Runs.rest {h : List (Event Call Reply)} {rest : Program Call Reply (I.Result operation)}
    (hrun : Runs env s₀ t ⟨callers, s⟩) (busy : callers i = some ⟨operation, h, rest⟩)
    (hadmits : rest.Admits es a) (hsteps : Steps env s es s') :
    Runs env s₀ (t ++ (es.map (.exchanged i operation) ++ [.returned i operation a]))
      ⟨Function.update callers i none, s'⟩ := by
  induction hadmits generalizing callers s t h with
  | done a =>
      cases hsteps
      simpa using Runs.finish hrun busy
  | @call c next r es a hadmits ih =>
      cases hsteps with
      | cons head tail =>
          have hnext := ih (Runs.exchange hrun busy head) (Function.update_self ..) tail
          simpa using hnext

/-- An operation that nobody disturbs is part of a run. -/
theorem Runs.alone (hrun : Runs env s₀ t ⟨callers, s⟩) (idle : callers i = none)
    (hadmits : (I.program operation).Admits es a) (hsteps : Steps env s es s') :
    Runs env s₀ (t ++ (.called i operation :: (es.map (.exchanged i operation) ++
      [.returned i operation a]))) ⟨callers, s'⟩ := by
  have hrest := Runs.rest (hrun.call operation idle) (Function.update_self ..) hadmits hsteps
  rw [Function.update_idem, Function.update_eq_self_iff.mpr idle.symm] at hrest
  simpa using hrest

omit [DecidableEq ι] in
/-- An operation on a deterministic server that nobody disturbs. -/
def Label.alone (server : σ → (c : Call) → Reply c × σ) (i : ι) (operation : I.Operation) (s : σ) :
    List (Label I ι) :=
  .called i operation :: (((I.program operation).trace server s).map (.exchanged i operation) ++
    [.returned i operation ((I.program operation).run server s).1])

variable {server : σ → (c : Call) → Reply c × σ}

omit [DecidableEq ι] in
theorem Label.returned_mem_alone (i : ι) (operation : I.Operation) (s : σ) :
    .returned i operation ((I.program operation).run server s).1 ∈
      Label.alone server i operation s :=
  List.mem_cons_of_mem _ List.mem_concat_self

theorem Runs.trace (hserver : ∀ s c, env s c (server s c).1 (server s c).2)
    (hrun : Runs env s₀ t ⟨callers, s⟩) (idle : callers i = none) (operation : I.Operation) :
    Runs env s₀ (t ++ Label.alone server i operation s)
      ⟨callers, ((I.program operation).run server s).2⟩ :=
  hrun.alone idle (Program.admits_trace _ s) (Program.steps_trace hserver _ s)

theorem Runs.trace_of_fixed {reply : (c : Call) → Reply c} (hreply : ∀ c, env s c (reply c) s)
    (hrun : Runs env s₀ t ⟨callers, s⟩) (idle : callers i = none) (operation : I.Operation) :
    Runs env s₀ (t ++ Label.alone (fun s c => (reply c, s)) i operation s) ⟨callers, s⟩ :=
  hrun.alone idle (Program.admits_trace _ s) (Program.steps_trace_of_fixed hreply _)

end Alone

/-- Which calls an operation may make after what it has exchanged itself, and what it has
exchanged when it returns. Nothing is said about the other callers. -/
structure Protocol (I : Interface.{u, v, w} Call Reply) where
  allowed : I.Operation → List (Event Call Reply) → Call → Prop
  post : (operation : I.Operation) → I.Result operation → List (Event Call Reply) → Prop

def Protocol.Governs (P : Protocol I) : Prop :=
  ∀ operation, (I.program operation).Meets history (P.allowed operation) (P.post operation) []

/-- A caller seen from outside. -/
abbrev View (I : Interface.{u, v, w} Call Reply) := Option (I.Operation × List (Event Call Reply))

def Running.view (r : Running I) : I.Operation × List (Event Call Reply) :=
  (r.operation, r.exchanged)

def System.views (sys : System I ι σ) : ι → View I := fun i => (sys.callers i).map Running.view

variable [DecidableEq ι]

/-- The runs that a protocol permits. -/
inductive Protocol.Permits (P : Protocol I) (env : Environment Call Reply σ) (s₀ : σ) :
    List (Label I ι) → (ι → View I) → σ → Prop
  | start : P.Permits env s₀ [] (fun _ => none) s₀
  | call {t : List (Label I ι)} {views : ι → View I} {s : σ} {i : ι}
      (run : P.Permits env s₀ t views s) (operation : I.Operation) (idle : views i = none) :
      P.Permits env s₀ (t ++ [.called i operation])
        (Function.update views i (some (operation, []))) s
  | exchange {t : List (Label I ι)} {views : ι → View I} {s : σ} {i : ι}
      {operation : I.Operation} {h : List (Event Call Reply)} {c : Call} {r : Reply c} {s' : σ}
      (run : P.Permits env s₀ t views s) (busy : views i = some (operation, h))
      (allowed : P.allowed operation h c) (step : env s c r s') :
      P.Permits env s₀ (t ++ [.exchanged i operation ⟨c, r⟩])
        (Function.update views i (some (operation, h ++ [⟨c, r⟩]))) s'
  | finish {t : List (Label I ι)} {views : ι → View I} {s : σ} {i : ι}
      {operation : I.Operation} {h : List (Event Call Reply)} {a : I.Result operation}
      (run : P.Permits env s₀ t views s) (busy : views i = some (operation, h))
      (post : P.post operation a h) :
      P.Permits env s₀ (t ++ [.returned i operation a]) (Function.update views i none) s

section Refinement

variable {P : Protocol I} {env : Environment Call Reply σ} {s₀ : σ} {t : List (Label I ι)}
  {sys : System I ι σ}

/-- The rest of each program meets what is left of its specification, since a
specification over histories holds for whatever replies the others cause. -/
theorem Runs.meets (hP : P.Governs) (hrun : Runs env s₀ t sys) {i : ι} {r : Running I}
    (hi : sys.callers i = some r) :
    r.rest.Meets history (P.allowed r.operation) (P.post r.operation) r.exchanged := by
  induction hrun generalizing i r with
  | start => simp at hi
  | @call t sys j run operation idle ih =>
      by_cases hij : i = j
      · subst hij
        obtain rfl : _ = r := by simpa using hi
        exact hP operation
      · exact ih (by simpa [hij] using hi)
  | @exchange t sys j operation h c next reply s' run busy step ih =>
      by_cases hij : i = j
      · subst hij
        obtain rfl : _ = r := by simpa using hi
        exact (ih busy).2 reply _ rfl
      · exact ih (by simpa [hij] using hi)
  | @finish t sys j operation h a run busy ih =>
      by_cases hij : i = j
      · subst hij
        simp at hi
      · exact ih (by simpa [hij] using hi)

theorem System.views_update (callers : ι → Option (Running I)) (s : σ) (i : ι)
    (caller : Option (Running I)) :
    System.views ⟨Function.update callers i caller, s⟩ =
      Function.update (fun j => (callers j).map Running.view) i (caller.map Running.view) := by
  funext j
  by_cases hij : j = i
  · subst hij
    simp [System.views]
  · simp [System.views, hij]

/-- Programs that each follow a protocol follow it together. -/
theorem Runs.permits (hP : P.Governs) (hrun : Runs env s₀ t sys) :
    P.Permits env s₀ t sys.views sys.state := by
  induction hrun with
  | start => exact .start
  | @call t sys i run operation idle ih =>
      rw [System.views_update]
      exact .call ih operation (by simp [System.views, idle])
  | @exchange t sys i operation h c next r s' run busy step ih =>
      have hmeets := run.meets hP busy
      rw [System.views_update]
      exact .exchange ih (by simp [busy, Running.view]) hmeets.1 step
  | @finish t sys i operation h a run busy ih =>
      have hmeets := run.meets hP busy
      rw [System.views_update]
      exact .finish ih (by simp [busy, Running.view]) hmeets

end Refinement

namespace Protocol.Permits

variable {P : Protocol I} {env : Environment Call Reply σ} {s₀ s : σ} {t : List (Label I ι)}
  {views : ι → View I}

/-- What an operation has exchanged is in the run. -/
theorem exchanged_mem (hrun : P.Permits env s₀ t views s) {i : ι} {operation : I.Operation}
    {h : List (Event Call Reply)} (hi : views i = some (operation, h)) :
    .called i operation ∈ t ∧ ∀ e ∈ h, .exchanged i operation e ∈ t := by
  induction hrun generalizing i operation h with
  | start => simp at hi
  | @call t views s j run operation' idle ih =>
      by_cases hij : i = j
      · subst hij
        obtain ⟨rfl, rfl⟩ : operation' = operation ∧ [] = h := by simpa using hi
        simp
      · obtain ⟨hcalled, hevents⟩ := ih (by simpa [hij] using hi)
        exact ⟨List.mem_append_left _ hcalled, fun e he => List.mem_append_left _ (hevents e he)⟩
  | @exchange t views s j operation' h' c r s' run busy allowed step ih =>
      by_cases hij : i = j
      · subst hij
        obtain ⟨rfl, rfl⟩ : operation' = operation ∧ h' ++ [⟨c, r⟩] = h := by simpa using hi
        obtain ⟨hcalled, hevents⟩ := ih busy
        refine ⟨List.mem_append_left _ hcalled, fun e he => ?_⟩
        rcases List.mem_append.mp he with he | he
        · exact List.mem_append_left _ (hevents e he)
        · obtain rfl := List.mem_singleton.mp he
          exact List.mem_append_right _ (List.mem_singleton_self _)
      · obtain ⟨hcalled, hevents⟩ := ih (by simpa [hij] using hi)
        exact ⟨List.mem_append_left _ hcalled, fun e he => List.mem_append_left _ (hevents e he)⟩
  | @finish t views s j operation' h' a run busy post ih =>
      by_cases hij : i = j
      · subst hij
        simp at hi
      · obtain ⟨hcalled, hevents⟩ := ih (by simpa [hij] using hi)
        exact ⟨List.mem_append_left _ hcalled, fun e he => List.mem_append_left _ (hevents e he)⟩

/-- An operation that has returned satisfied its postcondition. -/
theorem post_of_returned (hrun : P.Permits env s₀ t views s) {i : ι} {operation : I.Operation}
    {a : I.Result operation} (ha : .returned i operation a ∈ t) :
    ∃ h, P.post operation a h ∧ ∀ e ∈ h, .exchanged i operation e ∈ t := by
  induction hrun with
  | start => simp at ha
  | call run operation' idle ih =>
      obtain ⟨h, hpost, hevents⟩ := ih (by simpa using ha)
      exact ⟨h, hpost, fun e he => List.mem_append_left _ (hevents e he)⟩
  | exchange run busy allowed step ih =>
      obtain ⟨h, hpost, hevents⟩ := ih (by simpa using ha)
      exact ⟨h, hpost, fun e he => List.mem_append_left _ (hevents e he)⟩
  | @finish t views s j operation' h' a' run busy post ih =>
      rcases List.mem_append.mp ha with ha | ha
      · obtain ⟨h, hpost, hevents⟩ := ih ha
        exact ⟨h, hpost, fun e he => List.mem_append_left _ (hevents e he)⟩
      · obtain ⟨rfl, rfl, heq⟩ : i = j ∧ operation = operation' ∧ HEq a a' := by simpa using ha
        obtain rfl := eq_of_heq heq
        exact ⟨h', post, fun e he => List.mem_append_left _ ((exchanged_mem run busy).2 e he)⟩

end Protocol.Permits

variable (I) in
/-- The protocol that only asks for a run of the program. -/
def Protocol.complete : Protocol I where
  allowed _ _ _ := True
  post operation a h := (I.program operation).Admits h a

variable (I) in
omit [DecidableEq ι] in
theorem Protocol.complete_governs : (Protocol.complete I).Governs := by
  intro operation
  apply (Program.meets_history_admits (I.program operation) []).mono
  rintro a _ ⟨t, rfl, hadmits⟩
  exact hadmits

/-- An operation that has returned went through a run of its program, whatever went on
around it. -/
theorem Runs.admits_of_returned {env : Environment Call Reply σ} {s₀ : σ} {t : List (Label I ι)}
    {sys : System I ι σ} (hrun : Runs env s₀ t sys) {i : ι} {operation : I.Operation}
    {a : I.Result operation} (ha : .returned i operation a ∈ t) :
    ∃ h, (I.program operation).Admits h a ∧ ∀ e ∈ h, .exchanged i operation e ∈ t :=
  (hrun.permits (Protocol.complete_governs I)).post_of_returned ha

section Disturbed

omit [DecidableEq ι]

/-- The second state comes after the first one, or is it. -/
def Later (env : Environment Call Reply σ) : σ → σ → Prop :=
  Relation.ReflTransGen fun s s' => ∃ c r, env s c r s'

/-- Between two exchanges of a caller the others may have any number of theirs. -/
def Disturbed (env : Environment Call Reply σ) : Environment Call Reply σ :=
  fun s c r s' => ∃ s₁, Later env s s₁ ∧ env s₁ c r s'

variable {env : Environment Call Reply σ}

theorem Later.of_step {s s₁ s' : σ} {c : Call} {r : Reply c} (h : Later env s s₁)
    (step : env s₁ c r s') : Later env s s' :=
  Relation.ReflTransGen.tail h ⟨c, r, step⟩

end Disturbed

/-- What the caller has exchanged since the state `s`, in which it was not in the middle of
an operation. -/
def Running.Since (env : Environment Call Reply σ) (s s' : σ) (r : Running I) : Prop :=
  ∃ s₁ s₂, Later env s s₁ ∧ Steps (Disturbed env) s₁ r.exchanged s₂ ∧ Later env s₂ s'

inductive Moves (env : Environment Call Reply σ) :
    System I ι σ → Label I ι → System I ι σ → Prop
  | call {sys : System I ι σ} {i : ι} (operation : I.Operation) (idle : sys.callers i = none) :
      Moves env sys (.called i operation)
        ⟨Function.update sys.callers i (some ⟨operation, [], I.program operation⟩), sys.state⟩
  | exchange {sys : System I ι σ} {i : ι} {operation : I.Operation} {h : List (Event Call Reply)}
      {c : Call} {next : Reply c → Program Call Reply _} {r : Reply c} {s' : σ}
      (busy : sys.callers i = some ⟨operation, h, .call c next⟩) (step : env sys.state c r s') :
      Moves env sys (.exchanged i operation ⟨c, r⟩)
        ⟨Function.update sys.callers i (some ⟨operation, h ++ [⟨c, r⟩], next r⟩), s'⟩
  | finish {sys : System I ι σ} {i : ι} {operation : I.Operation}
      {h : List (Event Call Reply)} {a : I.Result operation}
      (busy : sys.callers i = some ⟨operation, h, .done a⟩) :
      Moves env sys (.returned i operation a) ⟨Function.update sys.callers i none, sys.state⟩

section Since

variable {env : Environment Call Reply σ} {s₀ s : σ} {i : ι} {sys sys' : System I ι σ}
  {l : Label I ι}

theorem Runs.of_concat {t : List (Label I ι)} (hrun : Runs env s₀ (t ++ [l]) sys') :
    ∃ sys, Runs env s₀ t sys ∧ Moves env sys l sys' := by
  generalize htrace : t ++ [l] = t' at hrun
  cases hrun with
  | start => simp at htrace
  | call run operation idle =>
      obtain ⟨rfl, rfl⟩ := List.append_singleton_inj.mp htrace
      exact ⟨_, run, .call operation idle⟩
  | exchange run busy step =>
      obtain ⟨rfl, rfl⟩ := List.append_singleton_inj.mp htrace
      exact ⟨_, run, .exchange busy step⟩
  | finish run busy =>
      obtain ⟨rfl, rfl⟩ := List.append_singleton_inj.mp htrace
      exact ⟨_, run, .finish busy⟩

theorem Moves.later (h : Moves env sys l sys') (hlater : Later env s sys.state) :
    Later env s sys'.state := by
  cases h with
  | call operation idle => exact hlater
  | exchange busy step => exact hlater.of_step step
  | finish busy => exact hlater

theorem Running.Since.later {r : Running I} {s' s'' : σ} (h : r.Since env s s')
    (hlater : Later env s' s'') : r.Since env s s'' := by
  obtain ⟨s₁, s₂, hstart, hsteps, hrest⟩ := h
  exact ⟨s₁, s₂, hstart, hsteps, hrest.trans hlater⟩

theorem Moves.since (h : Moves env sys l sys') (hlater : Later env s sys.state)
    (hsince : ∀ r, sys.callers i = some r → r.Since env s sys.state) {r : Running I}
    (hr : sys'.callers i = some r) : r.Since env s sys'.state := by
  cases h with
  | @call j operation idle =>
      by_cases hij : i = j
      · subst hij
        obtain rfl : _ = r := by simpa using hr
        exact ⟨sys.state, sys.state, hlater, .nil _, .refl⟩
      · exact hsince r (by simpa [hij] using hr)
  | @exchange j operation h c next reply s' busy step =>
      by_cases hij : i = j
      · subst hij
        obtain rfl : _ = r := by simpa using hr
        obtain ⟨s₁, s₂, hstart, hsteps, hrest⟩ := hsince _ busy
        exact ⟨s₁, s', hstart, hsteps.append (.cons ⟨_, hrest, step⟩ (.nil s')), .refl⟩
      · exact (hsince r (by simpa [hij] using hr)).later (Later.of_step .refl step)
  | @finish j operation h a busy =>
      by_cases hij : i = j
      · subst hij
        simp at hr
      · exact hsince r (by simpa [hij] using hr)

/-- Where a caller has exchanged nothing yet, what it has exchanged when an operation
returns is a run of the operation in the environment that the others disturb. -/
theorem Runs.since {before after : List (Label I ι)} (hrun : Runs env s₀ (before ++ after) sys) :
    ∃ start, Runs env s₀ before start ∧ Later env start.state sys.state ∧
      ((∀ r, start.callers i = some r → r.exchanged = []) →
        (∀ r, sys.callers i = some r → r.Since env start.state sys.state) ∧
        ∀ operation (a : I.Result operation), .returned i operation a ∈ after →
          ∃ h s₁ s₂, Later env start.state s₁ ∧ (I.program operation).Admits h a ∧
            Steps (Disturbed env) s₁ h s₂ ∧ Later env s₂ sys.state) := by
  induction after using List.reverseRecOn generalizing sys with
  | nil =>
      rw [List.append_nil] at hrun
      refine ⟨sys, hrun, .refl, fun hfresh => ⟨fun r hr => ?_, by simp⟩⟩
      refine ⟨sys.state, sys.state, .refl, ?_, .refl⟩
      rw [hfresh r hr]
      exact .nil _
  | append_singleton after l ih =>
      rw [← List.append_assoc] at hrun
      obtain ⟨sys₁, hrun₁, hmoves⟩ := hrun.of_concat
      obtain ⟨start, hstart, hlater, hrest⟩ := ih hrun₁
      refine ⟨start, hstart, hmoves.later hlater, fun hfresh => ?_⟩
      obtain ⟨hsince, hreturned⟩ := hrest hfresh
      refine ⟨fun r hr => hmoves.since hlater hsince hr, fun operation a ha => ?_⟩
      rcases List.mem_append.mp ha with ha | ha
      · obtain ⟨h, s₁, s₂, hs₁, hadmits, hsteps, hs₂⟩ := hreturned operation a ha
        exact ⟨h, s₁, s₂, hs₁, hadmits, hsteps, hmoves.later hs₂⟩
      · obtain rfl := List.mem_singleton.mp ha
        cases hmoves with
        | @finish _ _ h _ busy =>
            obtain ⟨s₁, s₂, hs₁, hsteps, hs₂⟩ := hsince _ busy
            exact ⟨h, s₁, s₂, hs₁, hrun₁.meets (Protocol.complete_governs I) busy, hsteps, hs₂⟩

theorem Runs.eq_start (hrun : Runs env s₀ ([] : List (Label I ι)) sys) :
    sys = ⟨fun _ => none, s₀⟩ := by
  generalize htrace : ([] : List (Label I ι)) = t at hrun
  cases hrun with
  | start => rfl
  | call run operation idle => simp at htrace
  | exchange run busy step => simp at htrace
  | finish run busy => simp at htrace

theorem Runs.since_start {t : List (Label I ι)} (hrun : Runs env s₀ t sys)
    {operation : I.Operation} {a : I.Result operation} (ha : .returned i operation a ∈ t) :
    ∃ h s₁ s₂, Later env s₀ s₁ ∧ (I.program operation).Admits h a ∧
      Steps (Disturbed env) s₁ h s₂ := by
  rw [← List.nil_append t] at hrun
  obtain ⟨start, hstart, _, hrest⟩ := hrun.since (i := i)
  obtain rfl := hstart.eq_start
  obtain ⟨h, s₁, s₂, hs₁, hadmits, hsteps, _⟩ := (hrest (by simp)).2 operation a ha
  exact ⟨h, s₁, s₂, hs₁, hadmits, hsteps⟩

theorem Runs.later {t : List (Label I ι)} (hrun : Runs env s₀ t sys) : Later env s₀ sys.state := by
  induction hrun with
  | start => exact .refl
  | call run operation idle ih => exact ih
  | exchange run busy step ih => exact ih.of_step step
  | finish run busy ih => exact ih

theorem Runs.since_called {before after : List (Label I ι)} {operation operation' : I.Operation}
    {a : I.Result operation'} (hrun : Runs env s₀ (before ++ .called i operation :: after) sys)
    (ha : .returned i operation' a ∈ after) :
    ∃ start, Runs env s₀ before start ∧ Later env start.state sys.state ∧
      ∃ h s₁ s₂, Later env start.state s₁ ∧ (I.program operation').Admits h a ∧
        Steps (Disturbed env) s₁ h s₂ := by
  rw [List.append_cons] at hrun
  obtain ⟨called, hcalled, hlater, hrest⟩ := hrun.since (i := i)
  obtain ⟨start, hstart, hmoves⟩ := hcalled.of_concat
  cases hmoves with
  | call _ idle =>
      have hfresh : ∀ r, Function.update start.callers i
          (some ⟨operation, [], I.program operation⟩) i = some r → r.exchanged = [] := by
        rintro r hr
        rw [Function.update_self] at hr
        obtain rfl := Option.some.inj hr
        rfl
      obtain ⟨_, hreturned⟩ := hrest hfresh
      obtain ⟨h, s₁, s₂, hs₁, hadmits, hsteps, _⟩ := hreturned _ a ha
      exact ⟨start, hstart, hlater, h, s₁, s₂, hs₁, hadmits, hsteps⟩

theorem Runs.mono {env' : Environment Call Reply σ}
    (henv : ∀ {s c r s'}, env s c r s' → env' s c r s') {t : List (Label I ι)}
    (hrun : Runs env s₀ t sys) : Runs env' s₀ t sys := by
  induction hrun with
  | start => exact .start
  | call run operation idle ih => exact .call ih operation idle
  | exchange run busy step ih => exact .exchange ih busy (henv step)
  | finish run busy ih => exact .finish ih busy

end Since

/-- What each exchange brings about and no later one undoes. -/
theorem Runs.explained {env : Environment Call Reply σ} {s₀ : σ} {t : List (Label I ι)}
    {sys : System I ι σ} {explains : Event Call Reply → σ → Prop}
    (hmade : ∀ {s c r s'}, env s c r s' → explains ⟨c, r⟩ s')
    (hkept : ∀ {s c r s' e}, env s c r s' → explains e s → explains e s')
    (hrun : Runs env s₀ t sys) {i : ι} {operation : I.Operation} {e : Event Call Reply}
    (he : .exchanged i operation e ∈ t) : explains e sys.state := by
  induction hrun with
  | start => simp at he
  | call run operation' idle ih => exact ih (by simpa using he)
  | @exchange t sys j operation' h c next r s' run busy step ih =>
      rcases List.mem_append.mp he with he | he
      · exact hkept step (ih he)
      · obtain ⟨rfl, rfl, rfl⟩ : i = j ∧ operation = operation' ∧ e = ⟨c, r⟩ := by simpa using he
        exact hmade step
  | finish run busy ih => exact ih (by simpa using he)

def Label.exchanges (p : Event Call Reply → Bool) : Label I ι → Bool
  | exchanged _ _ e => p e
  | _ => false

def Label.returns (p : (operation : I.Operation) → I.Result operation → Bool) : Label I ι → Bool
  | returned _ operation a => p operation a
  | _ => false

/-- The caller is in an operation that had the exchange. -/
def Holds (mints : Event Call Reply → Bool) (view : View I) : Prop :=
  ∃ operation h, view = some (operation, h) ∧ ∃ e ∈ h, mints e = true

section Tokens

variable {P : Protocol I} {env : Environment Call Reply σ} {s₀ s : σ} {t : List (Label I ι)}
  {views : ι → View I} {mints : Event Call Reply → Bool}
  {spends : (operation : I.Operation) → I.Result operation → Bool}

theorem not_holds_none : ¬ Holds (I := I) mints none := by
  rintro ⟨operation, h, hview, _⟩
  simp at hview

theorem holds_some_iff {operation : I.Operation} {h : List (Event Call Reply)} :
    Holds mints (some (operation, h)) ↔ ∃ e ∈ h, mints e = true := by
  constructor
  · rintro ⟨_, _, heq, hmints⟩
    obtain ⟨rfl, rfl⟩ : operation = _ ∧ h = _ := by simpa using heq
    exact hmints
  · intro hmints
    exact ⟨_, _, rfl, hmints⟩

/-- Nobody has a token that has not been handed out. -/
theorem Protocol.Permits.not_holds (hrun : P.Permits env s₀ t views s)
    (hnone : t.countP (Label.exchanges mints) = 0) (i : ι) : ¬ Holds mints (views i) := by
  rintro ⟨operation, h, hi, e, he, hmints⟩
  have hlabel := (hrun.exchanged_mem hi).2 e he
  exact List.countP_eq_zero.mp hnone _ hlabel hmints

theorem Protocol.Permits.not_spent
    (hspends : ∀ operation a h, P.post operation a h → spends operation a = true →
      ∃ e ∈ h, mints e = true)
    (hrun : P.Permits env s₀ t views s) (hnone : t.countP (Label.exchanges mints) = 0) :
    t.countP (Label.returns spends) = 0 := by
  rw [List.countP_eq_zero]
  rintro (_ | _ | ⟨i, operation, a⟩) hl hspent
  · exact Bool.noConfusion hspent
  · exact Bool.noConfusion hspent
  · obtain ⟨h, hpost, hevents⟩ := hrun.post_of_returned hl
    obtain ⟨e, he, hmints⟩ := hspends operation a h hpost hspent
    exact List.countP_eq_zero.mp hnone _ (hevents e he) hmints

/-- The token is with one caller, or spent, or not handed out. -/
structure TokenKept (mints : Event Call Reply → Bool)
    (spends : (operation : I.Operation) → I.Result operation → Bool) (t : List (Label I ι))
    (views : ι → View I) : Prop where
  unique : ∀ i j, Holds mints (views i) → Holds mints (views j) → i = j
  spent : t.countP (Label.returns spends) = 0 ∨
    t.countP (Label.returns spends) = 1 ∧ ∀ i, ¬ Holds mints (views i)

theorem Protocol.Permits.tokenKept
    (hspends : ∀ operation a h, P.post operation a h → spends operation a = true →
      ∃ e ∈ h, mints e = true)
    (hrun : P.Permits env s₀ t views s) (hmints : t.countP (Label.exchanges mints) ≤ 1) :
    TokenKept mints spends t views := by
  induction hrun with
  | start => exact ⟨fun i j h => (not_holds_none h).elim, Or.inl rfl⟩
  | @call t views s i run operation idle ih =>
      rw [List.countP_append] at hmints
      have hkept := ih (by omega)
      have hholds : ∀ j, Holds mints (Function.update views i (some (operation, [])) j) →
          Holds mints (views j) := by
        intro j
        by_cases hij : j = i
        · subst hij
          simp [holds_some_iff]
        · simp [hij]
      refine ⟨fun j k hj hk => hkept.unique j k (hholds j hj) (hholds k hk), ?_⟩
      rcases hkept.spent with hzero | ⟨hone, hnone⟩
      · exact Or.inl (by simp [hzero, Label.returns])
      · exact Or.inr ⟨by simp [hone, Label.returns], fun j hj => hnone j (hholds j hj)⟩
  | @exchange t views s i operation h c r s' run busy allowed step ih =>
      by_cases hmint : mints ⟨c, r⟩ = true
      · -- The token is handed out here, and to this caller.
        have hfirst : t.countP (Label.exchanges mints) = 0 := by
          have hlast : List.countP (Label.exchanges mints)
              [(.exchanged i operation ⟨c, r⟩ : Label I ι)] = 1 := by
            simp [Label.exchanges, hmint]
          rw [List.countP_append, hlast] at hmints
          omega
        have hholds : ∀ j, Holds mints
            (Function.update views i (some (operation, h ++ [⟨c, r⟩])) j) → j = i := by
          intro j hj
          by_contra hij
          rw [Function.update_of_ne hij] at hj
          exact run.not_holds hfirst j hj
        refine ⟨fun j k hj hk => (hholds j hj).trans (hholds k hk).symm, Or.inl ?_⟩
        simpa [Label.returns] using run.not_spent hspends hfirst
      · rw [List.countP_append] at hmints
        have hkept := ih (by omega)
        have hholds : ∀ j, Holds mints
            (Function.update views i (some (operation, h ++ [⟨c, r⟩])) j) →
              Holds mints (views j) := by
          intro j
          by_cases hij : j = i
          · subst hij
            simp [holds_some_iff, busy, hmint]
          · simp [hij]
        refine ⟨fun j k hj hk => hkept.unique j k (hholds j hj) (hholds k hk), ?_⟩
        rcases hkept.spent with hzero | ⟨hone, hnone⟩
        · exact Or.inl (by simp [hzero, Label.returns])
        · exact Or.inr ⟨by simp [hone, Label.returns], fun j hj => hnone j (hholds j hj)⟩
  | @finish t views s i operation h a run busy post ih =>
      rw [List.countP_append] at hmints
      have hkept := ih (by omega)
      have hholds : ∀ j, Holds mints (Function.update views i none j) →
          j ≠ i ∧ Holds mints (views j) := by
        intro j
        by_cases hij : j = i
        · subst hij
          simp [not_holds_none]
        · simp [hij]
      refine ⟨fun j k hj hk => hkept.unique j k (hholds j hj).2 (hholds k hk).2, ?_⟩
      by_cases hspent : spends operation a = true
      · -- Only who has the token can spend it, and then nobody has it.
        have hholder : Holds mints (views i) := by
          rw [busy, holds_some_iff]
          exact hspends operation a h post hspent
        rcases hkept.spent with hzero | ⟨_, hnone⟩
        · refine Or.inr ⟨by simp [hzero, Label.returns, hspent], fun j hj => ?_⟩
          obtain ⟨hij, hj⟩ := hholds j hj
          exact hij (hkept.unique j i hj hholder)
        · exact (hnone i hholder).elim
      · rcases hkept.spent with hzero | ⟨hone, hnone⟩
        · exact Or.inl (by simp [hzero, Label.returns, hspent])
        · exact Or.inr ⟨by simp [hone, Label.returns, hspent],
            fun j hj => hnone j (hholds j hj).2⟩

theorem Protocol.Permits.spent_le_one
    (hspends : ∀ operation a h, P.post operation a h → spends operation a = true →
      ∃ e ∈ h, mints e = true)
    (hrun : P.Permits env s₀ t views s) (hmints : t.countP (Label.exchanges mints) ≤ 1) :
    t.countP (Label.returns spends) ≤ 1 := by
  rcases (hrun.tokenKept hspends hmints).spent with h | ⟨h, _⟩
  · omega
  · omega

end Tokens

/-- Something that an operation does once where it is called for it, and has done where it
returns something for it. -/
structure Effect (I : Interface.{u, v, w} Call Reply) where
  calls : I.Operation → Bool
  exchanges : Event Call Reply → Bool
  returns : (operation : I.Operation) → I.Result operation → Bool

namespace Effect

def called (effect : Effect I) (i : ι) : Label I ι → Bool
  | .called j operation => i = j ∧ effect.calls operation
  | _ => false

def exchanged (effect : Effect I) (i : ι) : Label I ι → Bool
  | .exchanged j _ e => i = j ∧ effect.exchanges e
  | _ => false

def returned (effect : Effect I) (i : ι) : Label I ι → Bool
  | .returned j operation a => i = j ∧ effect.returns operation a
  | _ => false

omit [DecidableEq ι] in
def protocol (effect : Effect I) : Protocol I where
  allowed operation h c := ∀ r, effect.exchanges ⟨c, r⟩ = true →
    effect.calls operation = true ∧ ∀ e ∈ h, effect.exchanges e = false
  post operation a h := effect.returns operation a = true → ∃ e ∈ h, effect.exchanges e = true

/-- The numbers of calls, exchanges and results of a caller. The operation that it is in
counts for one call, and for one exchange if it has made it. -/
def Balanced (effect : Effect I) (calls exchanges results : Nat) : View I → Prop
  | none => results ≤ exchanges ∧ exchanges ≤ calls
  | some (operation, h) =>
      results + h.countP effect.exchanges ≤ exchanges ∧
      exchanges + (if effect.calls operation then 1 else 0) ≤
        calls + h.countP effect.exchanges ∧
      h.countP effect.exchanges ≤ if effect.calls operation then 1 else 0

variable {effect : Effect I} {env : Environment Call Reply σ} {s₀ s : σ} {t : List (Label I ι)}
  {views : ι → View I}

theorem balanced (hrun : effect.protocol.Permits env s₀ t views s) (i : ι) :
    effect.Balanced (t.countP (effect.called i)) (t.countP (effect.exchanged i))
      (t.countP (effect.returned i)) (views i) := by
  induction hrun with
  | start => exact ⟨le_rfl, le_rfl⟩
  | @call t views s j run operation idle ih =>
      by_cases hij : i = j
      · subst hij
        rw [idle] at ih
        obtain ⟨hresults, hexchanges⟩ := ih
        simp [Balanced, called, exchanged, returned, hresults, hexchanges]
      · simpa [hij, called, exchanged, returned] using ih
  | @exchange t views s j operation h c r s' run busy allowed step ih =>
      by_cases hij : i = j
      · subst hij
        rw [busy] at ih
        obtain ⟨hresults, hexchanges, honce⟩ := ih
        cases hevent : effect.exchanges ⟨c, r⟩ with
        | false =>
            simpa [Balanced, called, exchanged, returned, hevent] using
              ⟨hresults, hexchanges, honce⟩
        | true =>
            -- The first and only exchange of the operation.
            obtain ⟨hcalls, hnone⟩ := allowed r hevent
            have hzero : h.countP effect.exchanges = 0 :=
              List.countP_eq_zero.mpr fun e he => Bool.eq_false_iff.mp (hnone e he)
            rw [hzero] at hresults
            rw [hzero, if_pos hcalls] at hexchanges
            simpa [Balanced, called, exchanged, returned, hevent, hcalls, hzero] using
              ⟨hresults, hexchanges⟩
      · simpa [hij, called, exchanged, returned] using ih
  | @finish t views s j operation h a run busy post ih =>
      by_cases hij : i = j
      · subst hij
        rw [busy] at ih
        obtain ⟨hresults, hexchanges, honce⟩ := ih
        have hpaid : (if effect.returns operation a then 1 else 0) ≤
            h.countP effect.exchanges := by
          split
          · rename_i hreturns
            exact List.countP_pos_iff.mpr (post hreturns)
          · exact Nat.zero_le _
        simp only [Function.update_self, Balanced, called, exchanged, returned, true_and,
          List.countP_append, List.countP_singleton, Bool.decide_eq_true, Bool.false_eq_true,
          if_false, add_zero]
        omega
      · simpa [hij, called, exchanged, returned] using ih

/-- The results of each caller are backed by exchanges of its own, and these by calls. -/
theorem accounted {sys : System I ι σ} (hgoverns : effect.protocol.Governs)
    (hrun : Runs env s₀ t sys) (i : ι) :
    t.countP (effect.returned i) ≤ t.countP (effect.exchanged i) ∧
      t.countP (effect.exchanged i) ≤ t.countP (effect.called i) := by
  have hbalanced := balanced (hrun.permits hgoverns) i
  cases hview : sys.views i with
  | none =>
      rw [hview] at hbalanced
      exact hbalanced
  | some view =>
      obtain ⟨operation, h⟩ := view
      rw [hview] at hbalanced
      obtain ⟨hresults, hexchanges, honce⟩ := hbalanced
      exact ⟨by omega, by omega⟩

end Effect

/-- An operation can return, or some good reply lets it go on. -/
inductive Advances {α : Type w} (env : Environment Call Reply σ) (good : Event Call Reply → Prop)
    (s : σ) : Program Call Reply α → Prop
  | done (a : α) : Advances env good s (.done a)
  | call {c : Call} {next : Reply c → Program Call Reply α} {r : Reply c} {s' : σ}
      (step : env s c r s') (hgood : good ⟨c, r⟩) : Advances env good s (.call c next)

def Label.Completes (good : Event Call Reply → Prop) : Label I ι → Prop
  | called _ _ => False
  | exchanged _ _ e => good e
  | returned _ _ _ => True

/-- What a caller is after its next step. -/
inductive Running.Next : Option (Running I) → Option (Running I) → Prop
  | exchange {operation : I.Operation} {h h' : List (Event Call Reply)} {c : Call}
      {next : Reply c → Program Call Reply _} (r : Reply c) :
      Next (some ⟨operation, h', next r⟩) (some ⟨operation, h, .call c next⟩)
  | finish {r : Running I} : Next none (some r)

theorem Running.wellFounded_next : WellFounded (Running.Next (I := I)) := by
  have hnone : Acc (Running.Next (I := I)) none := by
    refine ⟨_, fun r hr => ?_⟩
    cases hr
  refine ⟨fun caller => ?_⟩
  rcases caller with _ | ⟨operation, h, rest⟩
  · exact hnone
  · induction rest generalizing h with
    | done a =>
        refine ⟨_, fun r hr => ?_⟩
        cases hr
        exact hnone
    | call c next ih =>
        refine ⟨_, fun r hr => ?_⟩
        cases hr with
        | exchange r => exact ih r _
        | finish => exact hnone

theorem Runs.completes [Finite ι] {env : Environment Call Reply σ} {s₀ : σ}
    {good : Event Call Reply → Prop}
    (hadvances : ∀ (t : List (Label I ι)) sys, Runs env s₀ t sys →
      (∃ i, sys.callers i ≠ none) →
      ∃ i r, sys.callers i = some r ∧ Advances env good sys.state r.rest)
    {t : List (Label I ι)} {sys : System I ι σ} (hrun : Runs env s₀ t sys) :
    ∃ t' sys', Runs env s₀ (t ++ t') sys' ∧ (∀ l ∈ t', l.Completes good) ∧
      ∀ i, sys'.callers i = none := by
  obtain ⟨callers, s⟩ := sys
  have hwf : WellFounded (Pi.Lex (WellOrderingRel (α := ι)) (Running.Next (I := I))) :=
    Pi.Lex.wellFounded WellOrderingRel fun _ => Running.wellFounded_next
  induction callers using hwf.induction generalizing t s with
  | _ callers ih =>
      by_cases hidle : ∃ i, callers i ≠ none
      · obtain ⟨i, ⟨operation, h, rest⟩, hi, hrest⟩ := hadvances t _ hrun hidle
        have hless : ∀ caller, Running.Next caller (some ⟨operation, h, rest⟩) →
            Pi.Lex WellOrderingRel Running.Next (Function.update callers i caller) callers := by
          intro caller hnext
          have hi : callers i = some ⟨operation, h, rest⟩ := hi
          refine ⟨i, fun j hj => ?_, by simpa [hi] using hnext⟩
          refine Function.update_of_ne ?_ _ _
          rintro rfl
          exact irrefl _ hj
        change Advances env good s rest at hrest
        cases hrest with
        | done a =>
            obtain ⟨t', sys', hrun', ht', hend⟩ :=
              ih _ (hless none .finish) s (.finish hrun hi)
            refine ⟨.returned i operation a :: t', sys', by simpa using hrun', ?_, hend⟩
            simpa [Label.Completes] using ht'
        | @call c next r s' step hgood =>
            obtain ⟨t', sys', hrun', ht', hend⟩ :=
              ih _ (hless (some ⟨operation, h ++ [⟨c, r⟩], next r⟩) (.exchange r)) s'
                (.exchange hrun hi step)
            refine ⟨.exchanged i operation ⟨c, r⟩ :: t', sys', by simpa using hrun', ?_, hend⟩
            simpa [Label.Completes, hgood] using ht'
      · push Not at hidle
        exact ⟨[], _, by simpa using hrun, by simp, hidle⟩

end DomainKmip.Library.Concurrency
