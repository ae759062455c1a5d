import Mathlib.Tactic.Common

/-!
Programs that talk to an environment: a program either is done or makes a call
and continues with the reply. A program says nothing about the replies, so one
program can be run against fixed replies, a deterministic server or any
relation between the states of an environment.
-/

namespace DomainKmip.Library.Interaction

universe u v w x

inductive Program (Call : Type u) (Reply : Call → Type v) (α : Type w) where
  | done (result : α)
  | call (request : Call) (next : Reply request → Program Call Reply α)

structure Event (Call : Type u) (Reply : Call → Type v) where
  call : Call
  reply : Reply call

/-- The steps an environment can take: state, call, reply, next state. -/
abbrev Environment (Call : Type u) (Reply : Call → Type v) (σ : Type x) :=
  σ → (call : Call) → Reply call → σ → Prop

namespace Program

variable {Call : Type u} {Reply : Call → Type v} {σ : Type x}

section Monad

variable {α β γ : Type w}

def bind : Program Call Reply α → (α → Program Call Reply β) → Program Call Reply β
  | done a, f => f a
  | call c next, f => call c fun r => (next r).bind f

instance : Monad (Program Call Reply) where
  pure := done
  bind := bind

@[simp] theorem pure_eq (a : α) : (pure a : Program Call Reply α) = done a := rfl

@[simp] theorem done_bind (a : α) (f : α → Program Call Reply β) :
    (done a >>= f) = f a := rfl

@[simp] theorem call_bind (c : Call) (next : Reply c → Program Call Reply α)
    (f : α → Program Call Reply β) :
    (call c next >>= f) = call c fun r => next r >>= f := rfl

theorem bind_done (p : Program Call Reply α) : (p >>= done) = p := by
  induction p with
  | done a => rfl
  | call c next ih => simpa using funext ih

theorem bind_assoc' (p : Program Call Reply α) (f : α → Program Call Reply β)
    (g : β → Program Call Reply γ) :
    ((p >>= f) >>= g) = (p >>= fun a => f a >>= g) := by
  induction p with
  | done a => rfl
  | call c next ih => simpa using funext ih

instance : LawfulMonad (Program Call Reply) :=
  LawfulMonad.mk' _ (fun p => bind_done p) (fun _ _ => rfl) bind_assoc'

end Monad

variable {α β : Type w}

/-- Run against an environment that answers each call in one fixed way. -/
def eval (reply : (c : Call) → Reply c) : Program Call Reply α → α
  | done a => a
  | call c next => (next (reply c)).eval reply

@[simp] theorem eval_done (reply : (c : Call) → Reply c) (a : α) :
    (done a : Program Call Reply α).eval reply = a := rfl

@[simp] theorem eval_call (reply : (c : Call) → Reply c) (c : Call)
    (next : Reply c → Program Call Reply α) :
    (call c next).eval reply = (next (reply c)).eval reply := rfl

@[simp] theorem eval_bind (reply : (c : Call) → Reply c) (p : Program Call Reply α)
    (f : α → Program Call Reply β) :
    (p >>= f).eval reply = (f (p.eval reply)).eval reply := by
  induction p with
  | done a => rfl
  | call c next ih => simpa using ih (reply c)

/-- Run against a server that keeps a state. -/
def run (server : σ → (c : Call) → Reply c × σ) : Program Call Reply α → σ → α × σ
  | done a, s => (a, s)
  | call c next, s => (next (server s c).1).run server (server s c).2

@[simp] theorem run_done (server : σ → (c : Call) → Reply c × σ) (a : α) (s : σ) :
    (done a : Program Call Reply α).run server s = (a, s) := rfl

@[simp] theorem run_call (server : σ → (c : Call) → Reply c × σ) (c : Call)
    (next : Reply c → Program Call Reply α) (s : σ) :
    (call c next).run server s = (next (server s c).1).run server (server s c).2 := rfl

/-- `p.Admits t a`: exchanging the events of `t` in order, `p` ends with `a`. -/
inductive Admits : Program Call Reply α → List (Event Call Reply) → α → Prop
  | done (a : α) : Admits (done a) [] a
  | call {c : Call} {next : Reply c → Program Call Reply α} (r : Reply c)
      {t : List (Event Call Reply)} {a : α} (h : Admits (next r) t a) :
      Admits (call c next) (⟨c, r⟩ :: t) a

theorem Admits.of_bind {p : Program Call Reply α} {f : α → Program Call Reply β}
    {t : List (Event Call Reply)} {b : β} (h : (p >>= f).Admits t b) :
    ∃ t₁ t₂ a, t = t₁ ++ t₂ ∧ p.Admits t₁ a ∧ (f a).Admits t₂ b := by
  induction p generalizing t with
  | done a => exact ⟨[], t, a, rfl, .done a, h⟩
  | call c next ih =>
      cases h with
      | call r h =>
          obtain ⟨t₁, t₂, a, rfl, hp, hf⟩ := ih r h
          exact ⟨_ :: t₁, t₂, a, rfl, .call r hp, hf⟩

theorem Admits.bind {p : Program Call Reply α} {f : α → Program Call Reply β}
    {t₁ t₂ : List (Event Call Reply)} {a : α} {b : β} (hp : p.Admits t₁ a)
    (hf : (f a).Admits t₂ b) : (p >>= f).Admits (t₁ ++ t₂) b := by
  induction hp with
  | done a => exact hf
  | call r _ ih => exact .call r (ih hf)

/-- What a program ends with is settled by what it has exchanged. -/
theorem Admits.unique {p : Program Call Reply α} {t : List (Event Call Reply)} {a b : α}
    (h : p.Admits t a) (h' : p.Admits t b) : a = b := by
  induction h with
  | done a =>
      cases h'
      rfl
  | call r _ ih =>
      cases h' with
      | call _ h' => exact ih h'

theorem Admits.of_done {a b : α} {t : List (Event Call Reply)}
    (h : (Program.done a : Program Call Reply α).Admits t b) : t = [] ∧ a = b := by
  cases h
  exact ⟨rfl, rfl⟩

/-- A single call, whose reply is all there is to its result. -/
theorem Admits.of_request {c : Call} {f : Reply c → α} {t : List (Event Call Reply)} {a : α}
    (h : (Program.call c fun r => Program.done (f r)).Admits t a) : ∃ r, t = [⟨c, r⟩] ∧ f r = a := by
  cases h with
  | call r h =>
      obtain ⟨rfl, rfl⟩ := h.of_done
      exact ⟨r, rfl, rfl⟩

theorem exists_admits (reply : (c : Call) → Reply c) (p : Program Call Reply α) :
    ∃ t, p.Admits t (p.eval reply) := by
  induction p with
  | done a => exact ⟨[], .done a⟩
  | call c next ih =>
      obtain ⟨t, ht⟩ := ih (reply c)
      exact ⟨⟨c, reply c⟩ :: t, .call (reply c) ht⟩

end Program

inductive Steps {Call : Type u} {Reply : Call → Type v} {σ : Type x}
    (env : Environment Call Reply σ) : σ → List (Event Call Reply) → σ → Prop
  | nil (s : σ) : Steps env s [] s
  | cons {s s₁ s' : σ} {c : Call} {r : Reply c} {t : List (Event Call Reply)}
      (head : env s c r s₁) (tail : Steps env s₁ t s') : Steps env s (⟨c, r⟩ :: t) s'

namespace Steps

variable {Call : Type u} {Reply : Call → Type v} {σ : Type x}
  {env : Environment Call Reply σ}

theorem append {s s₁ s' : σ} {t t' : List (Event Call Reply)}
    (h : Steps env s t s₁) (h' : Steps env s₁ t' s') : Steps env s (t ++ t') s' := by
  induction h with
  | nil s => exact h'
  | cons head _ ih => exact .cons head (ih h')

end Steps

namespace Program

variable {Call : Type u} {Reply : Call → Type v} {σ : Type x} {α β : Type w}

/-- In every run from state `s`, each call is allowed in the state in which it
is made, and the result and the last state satisfy `post`. -/
def Meets (env : Environment Call Reply σ) (allowed : σ → Call → Prop)
    (post : α → σ → Prop) : Program Call Reply α → σ → Prop
  | done a, s => post a s
  | call c next, s =>
      allowed s c ∧ ∀ r s', env s c r s' → Meets env allowed post (next r) s'

variable {env : Environment Call Reply σ} {allowed : σ → Call → Prop}

@[simp] theorem meets_done {post : α → σ → Prop} {a : α} {s : σ} :
    (done a).Meets env allowed post s ↔ post a s := Iff.rfl

@[simp] theorem meets_call {post : α → σ → Prop} {c : Call}
    {next : Reply c → Program Call Reply α} {s : σ} :
    (call c next).Meets env allowed post s ↔
      allowed s c ∧ ∀ r s', env s c r s' → (next r).Meets env allowed post s' := Iff.rfl

theorem meets_bind {post : β → σ → Prop} {p : Program Call Reply α}
    {f : α → Program Call Reply β} {s : σ} :
    (p >>= f).Meets env allowed post s ↔
      p.Meets env allowed (fun a s' => (f a).Meets env allowed post s') s := by
  induction p generalizing s with
  | done a => rfl
  | call c next ih => simp only [call_bind, meets_call, ih]

theorem Meets.mono {post post' : α → σ → Prop} {p : Program Call Reply α} {s : σ}
    (h : p.Meets env allowed post s) (hpost : ∀ a s', post a s' → post' a s') :
    p.Meets env allowed post' s := by
  induction p generalizing s with
  | done a => exact hpost a s h
  | call c next ih => exact ⟨h.1, fun r s' hr => ih r (h.2 r s' hr)⟩

theorem Meets.weaken {allowed' : σ → Call → Prop} {post post' : α → σ → Prop}
    {p : Program Call Reply α} {s : σ} (h : p.Meets env allowed post s)
    (hallowed : ∀ s' c, allowed s' c → allowed' s' c) (hpost : ∀ a s', post a s' → post' a s') :
    p.Meets env allowed' post' s := by
  induction p generalizing s with
  | done a => exact hpost a s h
  | call c next ih => exact ⟨hallowed s c h.1, fun r s' hr => ih r (h.2 r s' hr)⟩

theorem Meets.post_of_admits {post : α → σ → Prop} {p : Program Call Reply α}
    {s s' : σ} {t : List (Event Call Reply)} {a : α}
    (h : p.Meets env allowed post s) (ha : p.Admits t a) (hs : Steps env s t s') :
    post a s' := by
  induction ha generalizing s with
  | done a =>
      cases hs
      exact h
  | call r _ ih =>
      cases hs with
      | cons head tail => exact ih (h.2 _ _ head) tail

theorem Meets.allowed_of_admits {post : α → σ → Prop} {p : Program Call Reply α}
    {s s' : σ} {before after : List (Event Call Reply)} {e : Event Call Reply} {a : α}
    (h : p.Meets env allowed post s) (ha : p.Admits (before ++ e :: after) a)
    (hs : Steps env s (before ++ e :: after) s') :
    ∃ s₁, Steps env s before s₁ ∧ allowed s₁ e.call := by
  induction before generalizing s p with
  | nil =>
      cases ha
      exact ⟨s, .nil s, h.1⟩
  | cons d before ih =>
      cases ha with
      | call r ha =>
          cases hs with
          | cons head tail =>
              obtain ⟨s₁, hs₁, hallowed⟩ := ih (h.2 _ _ head) ha tail
              exact ⟨s₁, .cons head hs₁, hallowed⟩

end Program

section History

variable {Call : Type u} {Reply : Call → Type v} {α : Type w}

/-- The environment that only remembers what was exchanged: with it, `allowed` speaks about
everything that happened before a call. -/
def history : Environment Call Reply (List (Event Call Reply)) :=
  fun h c r h' => h' = h ++ [⟨c, r⟩]

theorem steps_history (h t : List (Event Call Reply)) : Steps history h t (h ++ t) := by
  induction t generalizing h with
  | nil => simpa using Steps.nil h
  | cons e t ih =>
      have htail := ih (h ++ [e])
      rw [List.append_assoc, List.singleton_append] at htail
      exact .cons rfl htail

theorem eq_of_steps_history {h h' t : List (Event Call Reply)}
    (hs : Steps history h t h') : h' = h ++ t := by
  induction hs with
  | nil s => simp
  | cons head _ ih =>
      rw [ih, head]
      simp

/-- A program that meets its specification over histories makes only allowed
calls, and every complete run satisfies the postcondition. -/
theorem sound_of_meets_history {allowed : List (Event Call Reply) → Call → Prop}
    {post : α → List (Event Call Reply) → Prop} {p : Program Call Reply α}
    (h : p.Meets history allowed post []) {t : List (Event Call Reply)} {a : α}
    (ha : p.Admits t a) :
    post a t ∧ ∀ before e after, t = before ++ e :: after → allowed before e.call := by
  have hsteps : Steps history [] t t := by simpa using steps_history [] t
  refine ⟨h.post_of_admits ha hsteps, ?_⟩
  rintro before e after rfl
  obtain ⟨s₁, hs₁, hallowed⟩ := h.allowed_of_admits ha hsteps
  obtain rfl : s₁ = before := by simpa using eq_of_steps_history hs₁
  exact hallowed

/-- What a program has exchanged when it ends is one of its runs. -/
theorem Program.meets_history_admits (p : Program Call Reply α) (h : List (Event Call Reply)) :
    p.Meets history (fun _ _ => True) (fun a h' => ∃ t, h' = h ++ t ∧ p.Admits t a) h := by
  induction p generalizing h with
  | done a => exact ⟨[], (List.append_nil h).symm, .done a⟩
  | call c next ih =>
      refine ⟨trivial, fun r h' hr => ?_⟩
      rw [hr]
      apply (ih r _).mono
      rintro a _ ⟨t, rfl, hadmits⟩
      exact ⟨⟨c, r⟩ :: t, by simp, .call r hadmits⟩

/-- An environment that also remembers what was exchanged. -/
def withHistory {σ : Type x} (env : Environment Call Reply σ) :
    Environment Call Reply (List (Event Call Reply) × σ) :=
  fun s c r s' => s'.1 = s.1 ++ [⟨c, r⟩] ∧ env s.2 c r s'.2

theorem Steps.withHistory {σ : Type x} {env : Environment Call Reply σ} {s s' : σ}
    {t : List (Event Call Reply)} (hs : Steps env s t s') (h : List (Event Call Reply)) :
    Steps (withHistory env) (h, s) t (h ++ t, s') := by
  induction hs generalizing h with
  | nil s => simpa using Steps.nil (h, s)
  | @cons _ _ _ c r t head _ ih =>
      have htail := ih (h ++ [⟨c, r⟩])
      rw [List.append_assoc, List.singleton_append] at htail
      exact .cons ⟨rfl, head⟩ htail

end History

namespace Program

variable {Call : Type u} {Reply : Call → Type v} {σ : Type x} {α : Type w}

def trace (server : σ → (c : Call) → Reply c × σ) :
    Program Call Reply α → σ → List (Event Call Reply)
  | done _, _ => []
  | call c next, s =>
      ⟨c, (server s c).1⟩ :: (next (server s c).1).trace server (server s c).2

variable {server : σ → (c : Call) → Reply c × σ}

theorem admits_trace (p : Program Call Reply α) (s : σ) :
    p.Admits (p.trace server s) (p.run server s).1 := by
  induction p generalizing s with
  | done a => exact .done a
  | call c next ih => exact .call _ (ih _ _)

theorem steps_trace {env : Environment Call Reply σ}
    (hserver : ∀ s c, env s c (server s c).1 (server s c).2) (p : Program Call Reply α) (s : σ) :
    Steps env s (p.trace server s) (p.run server s).2 := by
  induction p generalizing s with
  | done a => exact .nil s
  | call c next ih => exact .cons (hserver s c) (ih _ _)

/-- A server whose state does not change. -/
theorem steps_trace_of_fixed {env : Environment Call Reply σ} {s : σ}
    {reply : (c : Call) → Reply c} (hreply : ∀ c, env s c (reply c) s)
    (p : Program Call Reply α) : Steps env s (p.trace (fun s c => (reply c, s)) s) s := by
  induction p with
  | done a => exact .nil s
  | call c next ih => exact .cons (hreply c) (ih _)

end Program

end DomainKmip.Library.Interaction
