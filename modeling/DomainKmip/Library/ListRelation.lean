import Mathlib.Data.List.Forall2

namespace DomainKmip.Library.ListRelation

variable {α β γ : Type*} {R S : α → β → Prop} {xs : List α} {ys : List β}

theorem exists_forall₂ (h : ∀ x ∈ xs, ∃ y, R x y) : ∃ ys, List.Forall₂ R xs ys := by
  induction xs with
  | nil => exact ⟨[], .nil⟩
  | cons x xs ih =>
      obtain ⟨y, hy⟩ := h x (by simp)
      obtain ⟨ys, hys⟩ := ih fun x' hmem => h x' (by simp [hmem])
      exact ⟨y :: ys, .cons hy hys⟩

theorem forall₂_congr_of_mem (h : ∀ x ∈ xs, ∀ y, R x y ↔ S x y) :
    List.Forall₂ R xs ys ↔ List.Forall₂ S xs ys := by
  induction xs generalizing ys with
  | nil => simp
  | cons x xs ih =>
      cases ys with
      | nil => simp
      | cons y ys =>
          rw [List.forall₂_cons, List.forall₂_cons]
          exact and_congr (h x (by simp) y) (ih fun x' hmem => h x' (by simp [hmem]))

theorem exists_of_forall₂_of_mem (hR : List.Forall₂ R xs ys) (hS : List.Forall₂ S xs ys)
    {x : α} (hx : x ∈ xs) : ∃ y, R x y ∧ S x y := by
  induction hR with
  | nil => simp at hx
  | cons hhead _ ih =>
      cases hS with
      | cons hhead' htail =>
          rcases List.mem_cons.mp hx with rfl | hx
          · exact ⟨_, hhead, hhead'⟩
          · exact ih htail hx

/-- Two partial functions map a list in the same way if both fail on it, or if they agree
on every element. -/
theorem forall₂_iff_forall₂_iff (hR : ∀ x y y', R x y → R x y' → y = y')
    (hS : ∀ x y y', S x y → S x y' → y = y') :
    (∀ ys, List.Forall₂ R xs ys ↔ List.Forall₂ S xs ys) ↔
      (∃ x ∈ xs, ∀ y, ¬ R x y) ∧ (∃ x ∈ xs, ∀ y, ¬ S x y) ∨ ∀ x ∈ xs, ∃ y, R x y ∧ S x y := by
  constructor
  · intro h
    by_cases hall : ∀ x ∈ xs, ∃ y, R x y
    · obtain ⟨ys, hys⟩ := exists_forall₂ hall
      exact Or.inr fun x hx => exists_of_forall₂_of_mem hys ((h ys).mp hys) hx
    · refine Or.inl ⟨by simpa using hall, ?_⟩
      by_contra hnone
      obtain ⟨ys, hys⟩ : ∃ ys, List.Forall₂ S xs ys := exists_forall₂ (by simpa using hnone)
      apply hall
      intro x hx
      obtain ⟨y, hy, _⟩ := exists_of_forall₂_of_mem ((h ys).mpr hys) hys hx
      exact ⟨y, hy⟩
  · rintro (⟨⟨x, hx, hnoneR⟩, x', hx', hnoneS⟩ | hboth) ys
    · constructor
      · intro hys
        obtain ⟨y, hy, _⟩ := exists_of_forall₂_of_mem hys hys hx
        exact absurd hy (hnoneR y)
      · intro hys
        obtain ⟨y, hy, _⟩ := exists_of_forall₂_of_mem hys hys hx'
        exact absurd hy (hnoneS y)
    · refine forall₂_congr_of_mem fun x hx y => ?_
      obtain ⟨y', hRy, hSy⟩ := hboth x hx
      constructor
      · intro hy
        rwa [hR x y y' hy hRy]
      · intro hy
        rwa [hS x y y' hy hSy]

theorem exists_mem_of_forall₂ (hR : List.Forall₂ R xs ys) {y : β} (hy : y ∈ ys) :
    ∃ x ∈ xs, R x y := by
  induction hR with
  | nil => simp at hy
  | cons hhead _ ih =>
      rcases List.mem_cons.mp hy with rfl | hy
      · exact ⟨_, List.mem_cons_self, hhead⟩
      · obtain ⟨x, hx, hrelated⟩ := ih hy
        exact ⟨x, List.mem_cons_of_mem _ hx, hrelated⟩

theorem forall₂_comp {T : β → γ → Prop} {zs : List γ} (hR : List.Forall₂ R xs ys)
    (hT : List.Forall₂ T ys zs) : List.Forall₂ (fun x z => ∃ y, R x y ∧ T y z) xs zs := by
  induction hR generalizing zs with
  | nil =>
      cases hT
      exact .nil
  | cons hhead _ ih =>
      cases hT with
      | cons hhead' htail => exact .cons ⟨_, hhead, hhead'⟩ (ih htail)

end DomainKmip.Library.ListRelation
