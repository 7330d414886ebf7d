/-
Computations that may fail. A computation of several steps succeeds when each of them does, and
that of a list when that of each element does; else it fails with the first failure.
-/
import Mathlib

namespace ShapeFlow

theorem bind_eq_ok {ε α β : Type} {x : Except ε α} {f : α → Except ε β} {b : β} :
    (x >>= f) = .ok b ↔ ∃ a, x = .ok a ∧ f a = .ok b := by
  cases x with
  | error e => exact ⟨nofun, nofun⟩
  | ok a => exact ⟨fun h => ⟨a, rfl, h⟩, fun ⟨_, ha, h⟩ => by cases ha; exact h⟩

theorem map_eq_ok_iff {ε α β : Type} {x : Except ε α} {f : α → β} {b : β} :
    f <$> x = .ok b ↔ ∃ a, x = .ok a ∧ f a = b := by
  cases x with
  | error e => exact ⟨nofun, nofun⟩
  | ok a => exact ⟨fun h => ⟨a, rfl, by cases h; rfl⟩, fun ⟨_, ha, h⟩ => by cases ha; exact h ▸ rfl⟩

/-- A list is read when each of its elements is. -/
theorem mapM_eq_ok {ε α β : Type} {f : α → Except ε β} {as : List α} {bs : List β} :
    as.mapM f = .ok bs ↔ List.Forall₂ (fun a b => f a = .ok b) as bs := by
  induction as generalizing bs with
  | nil => exact ⟨fun h => by cases h; exact .nil, fun h => by cases h; rfl⟩
  | cons a as ih =>
    rw [List.mapM_cons, bind_eq_ok]
    constructor
    · rintro ⟨b, hb, h⟩
      obtain ⟨rest, hrest, h⟩ := bind_eq_ok.mp h
      cases h
      exact .cons hb (ih.mp hrest)
    · intro h
      obtain ⟨b, rest, hb, hrest, rfl⟩ := List.forall₂_cons_left_iff.mp h
      exact ⟨b, hb, bind_eq_ok.mpr ⟨rest, ih.mpr hrest, rfl⟩⟩

theorem exists_mapM_eq_ok {ε α β : Type} {f : α → Except ε β} {as : List α}
    (h : ∀ a ∈ as, ∃ b, f a = .ok b) : ∃ bs, as.mapM f = .ok bs := by
  simp only [mapM_eq_ok]
  induction as with
  | nil => exact ⟨[], .nil⟩
  | cons a as ih =>
    obtain ⟨b, hb⟩ := h a List.mem_cons_self
    obtain ⟨bs, hbs⟩ := ih fun a ha => h a (List.mem_cons_of_mem _ ha)
    exact ⟨b :: bs, .cons hb hbs⟩

/-- Where an element fails and those before it do not, the list fails as it does. -/
theorem mapM_eq_error {ε α β : Type} {f : α → Except ε β} {p : α → Bool} {as : List α} {a : α} {e : ε}
    (hok : ∀ a ∈ as, p a = false → ∃ b, f a = .ok b) (hfirst : as.find? p = some a)
    (ha : f a = .error e) : as.mapM f = .error e := by
  induction as with
  | nil => cases hfirst
  | cons a' as ih =>
    rw [List.mapM_cons]
    rw [List.find?_cons] at hfirst
    cases hp : p a' with
    | true =>
      rw [hp] at hfirst
      cases hfirst
      rw [ha]
      rfl
    | false =>
      rw [hp] at hfirst
      obtain ⟨b, hb⟩ := hok a' List.mem_cons_self hp
      rw [hb, ih (fun a ha => hok a (List.mem_cons_of_mem _ ha)) hfirst]
      rfl

end ShapeFlow
