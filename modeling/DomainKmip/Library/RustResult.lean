import Mathlib.Data.List.Forall2
import Mathlib.Tactic.Common

/-!
Outcomes of Rust computations. A call returns `Ok`, returns `Err` or panics, and
the `?` operator is the bind of the monad below: it stops at the first outcome
that is not `Ok`.
-/

namespace DomainKmip.Library.RustResult

universe u v w

inductive Outcome (ε : Type u) (α : Type v) where
  | ok (value : α)
  | err (error : ε)
  | panic
  deriving DecidableEq, Repr

namespace Outcome

variable {ε : Type u} {α β γ : Type v}

def bind (x : Outcome ε α) (f : α → Outcome ε β) : Outcome ε β :=
  match x with
  | ok a => f a
  | err e => err e
  | panic => panic

instance : Monad (Outcome ε) where
  pure := ok
  bind := bind

@[simp] theorem pure_eq (a : α) : (pure a : Outcome ε α) = ok a := rfl

@[simp] theorem ok_bind (a : α) (f : α → Outcome ε β) : (ok a >>= f) = f a := rfl

@[simp] theorem err_bind (e : ε) (f : α → Outcome ε β) :
    ((err e : Outcome ε α) >>= f) = err e := rfl

@[simp] theorem panic_bind (f : α → Outcome ε β) :
    ((panic : Outcome ε α) >>= f) = panic := rfl

instance : LawfulMonad (Outcome ε) :=
  LawfulMonad.mk' _
    (by intro α x; cases x <;> rfl)
    (by intro α β a f; rfl)
    (by intro α β γ x f g; cases x <;> rfl)

theorem bind_eq_ok_iff {x : Outcome ε α} {f : α → Outcome ε β} {b : β} :
    (x >>= f) = ok b ↔ ∃ a, x = ok a ∧ f a = ok b := by
  cases x <;> simp

theorem bind_eq_panic_iff {x : Outcome ε α} {f : α → Outcome ε β} :
    (x >>= f) = panic ↔ x = panic ∨ ∃ a, x = ok a ∧ f a = panic := by
  cases x <;> simp

def mapErr {ε' : Type w} (f : ε → ε') : Outcome ε α → Outcome ε' α
  | ok a => ok a
  | err e => err (f e)
  | panic => panic

@[simp] theorem mapErr_eq_ok_iff {ε' : Type w} {f : ε → ε'} {x : Outcome ε α} {a : α} :
    x.mapErr f = ok a ↔ x = ok a := by
  cases x <;> simp [mapErr]

@[simp] theorem mapErr_eq_panic_iff {ε' : Type w} {f : ε → ε'} {x : Outcome ε α} :
    x.mapErr f = panic ↔ x = panic := by
  cases x <;> simp [mapErr]

/-- A result of another crate, with its error converted. -/
def ofExcept {ε' : Type w} (f : ε' → ε) : Except ε' α → Outcome ε α
  | .ok a => ok a
  | .error e => err (f e)

@[simp] theorem ofExcept_ok {ε' : Type w} (f : ε' → ε) (a : α) :
    ofExcept f (.ok a) = ok a := rfl

@[simp] theorem ofExcept_error {ε' : Type w} (f : ε' → ε) (e : ε') :
    (ofExcept f (.error e) : Outcome ε α) = err (f e) := rfl

/-- `Option::unwrap` and `Option::expect`. -/
def unwrap : Option α → Outcome ε α
  | some a => ok a
  | none => panic

@[simp] theorem unwrap_some (a : α) : (unwrap (some a) : Outcome ε α) = ok a := rfl

@[simp] theorem unwrap_none : (unwrap none : Outcome ε α) = panic := rfl

@[simp] theorem unwrap_eq_ok_iff {x : Option α} {a : α} :
    (unwrap x : Outcome ε α) = ok a ↔ x = some a := by
  cases x <;> simp

@[simp] theorem unwrap_eq_panic_iff {x : Option α} :
    (unwrap x : Outcome ε α) = panic ↔ x = none := by
  cases x <;> simp

def okOr (e : ε) : Option α → Outcome ε α
  | some a => ok a
  | none => err e

@[simp] theorem okOr_eq_ok_iff {e : ε} {x : Option α} {a : α} :
    okOr e x = ok a ↔ x = some a := by
  cases x <;> simp [okOr]

def assert (condition : Bool) : Outcome ε PUnit.{v + 1} :=
  if condition then ok ⟨⟩ else panic

@[simp] theorem assert_true : (assert true : Outcome ε PUnit.{v + 1}) = ok ⟨⟩ := rfl

/-- The `for` loop that pushes one result for each element and leaves the
function at the first `Err` or panic. -/
def collect (f : α → Outcome ε β) : List α → Outcome ε (List β)
  | [] => ok []
  | a :: rest => do
      let b ← f a
      let bs ← collect f rest
      pure (b :: bs)

theorem collect_eq_ok_iff {f : α → Outcome ε β} {xs : List α} {ys : List β} :
    collect f xs = ok ys ↔ List.Forall₂ (fun x y => f x = ok y) xs ys := by
  induction xs generalizing ys with
  | nil => simp [collect, eq_comm]
  | cons x rest ih =>
      simp only [collect, bind_eq_ok_iff]
      constructor
      · rintro ⟨b, hb, bs, hbs, heq⟩
        obtain rfl : b :: bs = ys := by simpa using heq
        exact .cons hb (ih.mp hbs)
      · intro h
        cases h with
        | cons hb hbs => exact ⟨_, hb, _, ih.mpr hbs, rfl⟩

/-- The loop panics at the first element whose step does not return `Ok`, if
that step panics. -/
theorem collect_eq_panic_iff {f : α → Outcome ε β} {xs : List α} :
    collect f xs = panic ↔
      ∃ before x after, xs = before ++ x :: after ∧
        (∀ a ∈ before, ∃ b, f a = ok b) ∧ f x = panic := by
  induction xs with
  | nil => simp [collect]
  | cons x rest ih =>
      simp only [collect, bind_eq_panic_iff]
      constructor
      · rintro (hx | ⟨b, hb, hrest | ⟨_, _, h⟩⟩)
        · exact ⟨[], x, rest, rfl, by simp, hx⟩
        · obtain ⟨before, y, after, rfl, hbefore, hy⟩ := ih.mp hrest
          refine ⟨x :: before, y, after, rfl, ?_, hy⟩
          intro a ha
          rcases List.mem_cons.mp ha with rfl | ha
          · exact ⟨b, hb⟩
          · exact hbefore a ha
        · simp at h
      · rintro ⟨before, y, after, heq, hbefore, hy⟩
        cases before with
        | nil =>
            obtain ⟨rfl, rfl⟩ : x = y ∧ rest = after := by simpa using heq
            exact Or.inl hy
        | cons z before =>
            obtain ⟨rfl, rfl⟩ : x = z ∧ rest = before ++ y :: after := by simpa using heq
            obtain ⟨b, hb⟩ := hbefore x (by simp)
            refine Or.inr ⟨b, hb, Or.inl (ih.mpr ⟨before, y, after, rfl, ?_, hy⟩)⟩
            exact fun a ha => hbefore a (by simp [ha])

end Outcome

end DomainKmip.Library.RustResult
