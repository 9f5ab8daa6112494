import Mathlib.Data.List.Forall2
import PathQuery.Error

/-!
# Outcomes

Readers and queries have outcomes: a result or what went wrong. The lemmas here invert a successful
outcome that was put together from others. `Agrees` compares the outcomes of two queries: the same
result, or errors of the same kind. `SameOutcome` compares them up to a relation between results: an
error on either side is the very same error on the other.
-/

namespace PathQuery

section
variable {ε α β γ : Type}

/-- A mapped outcome that succeeds is that of a success. -/
theorem map_eq_ok {r : Except ε α} {f : α → β} {b : β} (h : r.map f = .ok b) :
    ∃ a, r = .ok a ∧ f a = b := by
  cases r with
  | error e => cases h
  | ok a => exact ⟨a, rfl, Except.ok.inj h⟩

/-- A mapped outcome that fails is that of the same failure. -/
theorem map_eq_error {r : Except ε α} {f : α → β} {e : ε} (h : r.map f = .error e) :
    r = .error e := by
  cases r with
  | error e => rw [← Except.error.inj h]
  | ok a => cases h

/-- Two maps over an outcome are one. -/
theorem map_map_outcome (r : Except ε α) (f : α → β) (g : β → γ) :
    (r.map f).map g = r.map (g ∘ f) := by
  cases r <;> rfl

/-- A list is read as a whole exactly if each of its elements is read. -/
theorem mapM_eq_ok_iff {f : α → Except ε β} {xs : List α} {ys : List β} :
    xs.mapM f = .ok ys ↔ List.Forall₂ (fun x y => f x = .ok y) xs ys := by
  induction xs generalizing ys with
  | nil =>
      rw [List.forall₂_nil_left_iff]
      exact ⟨fun h => (Except.ok.inj h).symm, fun h => h ▸ rfl⟩
  | cons x rest ih =>
      rw [List.mapM_cons, List.forall₂_cons_left_iff]
      constructor
      · intro h
        cases hx : f x with
        | error e =>
            rw [hx] at h
            cases h
        | ok y =>
            cases hrest : rest.mapM f with
            | error e =>
                rw [hx, hrest] at h
                cases h
            | ok others =>
                rw [hx, hrest] at h
                cases h
                exact ⟨y, others, rfl, ih.1 hrest, rfl⟩
      · rintro ⟨y, others, hx, hrest, rfl⟩
        rw [hx, ih.2 hrest]
        rfl

/-- If a list cannot be read as a whole, one of its elements cannot be read for the same reason. -/
theorem exists_of_mapM_error {f : α → Except ε β} {xs : List α} {e : ε}
    (h : xs.mapM f = .error e) : ∃ x ∈ xs, f x = .error e := by
  induction xs with
  | nil => cases h
  | cons x rest ih =>
      rw [List.mapM_cons] at h
      cases hx : f x with
      | error e' =>
          rw [hx] at h
          cases h
          exact ⟨x, List.mem_cons_self, hx⟩
      | ok y =>
          cases hrest : rest.mapM f with
          | error e' =>
              rw [hx, hrest] at h
              cases h
              obtain ⟨z, hz, hread⟩ := ih hrest
              exact ⟨z, List.mem_cons_of_mem _ hz, hread⟩
          | ok others =>
              rw [hx, hrest] at h
              cases h

/-- Of two lists that are related one by one each element of the first is related to one of the
second. -/
theorem exists_of_mem_forall₂ {R : α → β → Prop} {xs : List α} {ys : List β}
    (h : List.Forall₂ R xs ys) {x : α} (hx : x ∈ xs) : ∃ y ∈ ys, R x y := by
  induction h with
  | nil => cases hx
  | cons hhead _ ih =>
      rcases List.mem_cons.1 hx with rfl | hx
      · exact ⟨_, List.mem_cons_self, hhead⟩
      · obtain ⟨y, hy, hrel⟩ := ih hx
        exact ⟨y, List.mem_cons_of_mem _ hy, hrel⟩

/-- What follows from a relation for the elements of the first list holds one by one where the
relation does. -/
theorem forall₂_imp_of_mem {R S : α → β → Prop} {xs : List α} {ys : List β}
    (hR : List.Forall₂ R xs ys) (h : ∀ x ∈ xs, ∀ y, R x y → S x y) : List.Forall₂ S xs ys :=
  ((List.forall₂_and_left _ _).2 ⟨h, hR⟩).imp fun _ y hxy => hxy.1 y hxy.2

/-- Where two relations hold one by one, one after the other, so does what follows from both for the
elements of the first list. -/
theorem forall₂_comp_of_mem {R : α → β → Prop} {S : β → γ → Prop} {T : α → γ → Prop}
    {xs : List α} {ys : List β} {zs : List γ} (hR : List.Forall₂ R xs ys)
    (hS : List.Forall₂ S ys zs) (h : ∀ x ∈ xs, ∀ y z, R x y → S y z → T x z) :
    List.Forall₂ T xs zs := by
  induction hR generalizing zs with
  | nil =>
      cases hS
      exact .nil
  | cons hxy _ ih =>
      cases hS with
      | cons hyz hrest =>
          refine .cons (h _ List.mem_cons_self _ _ hxy hyz) (ih hrest fun x hx => ?_)
          exact h x (List.mem_cons_of_mem _ hx)

/-- In a list that is read as a whole each element is read as one of the results. -/
theorem exists_of_mem_mapM {f : α → Except ε β} {xs : List α} {ys : List β}
    (h : xs.mapM f = .ok ys) {x : α} (hx : x ∈ xs) : ∃ y ∈ ys, f x = .ok y :=
  exists_of_mem_forall₂ (mapM_eq_ok_iff.1 h) hx

/-- Two lists one behind the other are read one by one. -/
theorem exists_of_mapM_append {f : α → Except ε β} {xs others : List α} {zs : List β}
    (h : (xs ++ others).mapM f = .ok zs) :
    ∃ as bs, xs.mapM f = .ok as ∧ others.mapM f = .ok bs ∧ zs = as ++ bs := by
  rw [mapM_eq_ok_iff] at h
  induction xs generalizing zs with
  | nil => exact ⟨[], zs, rfl, mapM_eq_ok_iff.2 h, rfl⟩
  | cons x xs ih =>
      obtain ⟨z, more, hx, hmore, rfl⟩ := List.forall₂_cons_left_iff.1 h
      obtain ⟨as, bs, has, hbs, rfl⟩ := ih hmore
      exact ⟨z :: as, bs, mapM_eq_ok_iff.2 (.cons hx (mapM_eq_ok_iff.1 has)), hbs, rfl⟩

end

/-- Two outcomes are the same result, or both are errors, of the same kind. -/
inductive Agrees {α : Type} : Except Error α → Except Error α → Prop
  | ok (a : α) : Agrees (.ok a) (.ok a)
  | error {e f : Error} (h : e.kind = f.kind) : Agrees (.error e) (.error f)

namespace Agrees

variable {α β : Type}

/-- Every outcome agrees with itself. -/
theorem refl (r : Except Error α) : Agrees r r := by
  cases r with
  | error e => exact .error rfl
  | ok a => exact .ok a

/-- Agreement can be turned around. -/
theorem symm {r s : Except Error α} (h : Agrees r s) : Agrees s r := by
  cases h with
  | ok a => exact .ok a
  | error h => exact .error h.symm

/-- What agrees with a success is that success. -/
theorem eq_of_ok {r : Except Error α} {a : α} (h : Agrees r (.ok a)) : r = .ok a := by
  cases h
  rfl

/-- Outcomes that agree still do when the same is made of their results. -/
theorem map {r s : Except Error α} (h : Agrees r s) (f : α → β) :
    Agrees (r.map f) (s.map f) := by
  cases h with
  | ok a => exact .ok (f a)
  | error h => exact .error h

end Agrees

/-- Two outcomes are one and the same error, or results of which `L` holds. -/
inductive SameOutcome {ε α β : Type} (L : α → β → Prop) : Except ε α → Except ε β → Prop
  | ok {a : α} {b : β} (h : L a b) : SameOutcome L (.ok a) (.ok b)
  | error (e : ε) : SameOutcome L (.error e) (.error e)

namespace SameOutcome

variable {ε α β γ δ : Type} {L : α → β → Prop} {M : γ → δ → Prop}

/-- Outcomes stay the same up to relations if what is made of their results is related. -/
theorem map {r : Except ε α} {s : Except ε β} (h : SameOutcome L r s) {f : α → γ} {g : β → δ}
    (hM : ∀ a b, L a b → M (f a) (g b)) : SameOutcome M (r.map f) (s.map g) := by
  cases h with
  | ok h => exact .ok (hM _ _ h)
  | error e => exact .error e

/-- The same for what is made of the results on one side. -/
theorem map_left {r : Except ε α} {s : Except ε β} (h : SameOutcome L r s) {f : α → γ}
    {N : γ → β → Prop} (hN : ∀ a b, L a b → N (f a) b) : SameOutcome N (r.map f) s := by
  cases h with
  | ok h => exact .ok (hN _ _ h)
  | error e => exact .error e

end SameOutcome

end PathQuery
