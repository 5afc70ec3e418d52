import FabricReconciliation.Lib.Ceiling

/-!
# Encodings that can be told apart

An encoder separates a relation when two encodings with the same bytes, whatever follows each, are of related values
and are followed by the same. A list whose length is known is separated when its items are.

* **`Separates.each`** — a list of separated items is separated item by item;
* **`Separates.counted`** — and so is a list behind its length.
-/

namespace Lib

/-! ## Scripts that fit -/

/-- A script that is written in full into `room` bytes. -/
def Script.Fits (room : Nat) (sc : Script) : Prop := sc.Total ∧ sc.image.length ≤ room

section Fits

variable {α : Type} {room : Nat} {f : α → Script} {a : α} {l : List α} {s t : Script}

theorem Script.Fits.left (h : (s ++ t).Fits room) : s.Fits room := by
  obtain ⟨htotal, hlength⟩ := h
  rw [Script.total_append] at htotal
  rw [Script.image_append, List.length_append] at hlength
  exact ⟨htotal.1, by omega⟩

theorem Script.Fits.right (h : (s ++ t).Fits room) : t.Fits room := by
  obtain ⟨htotal, hlength⟩ := h
  rw [Script.total_append] at htotal
  rw [Script.image_append, List.length_append] at hlength
  exact ⟨htotal.2, by omega⟩

theorem Script.Fits.item (h : (putEach f l).Fits room) (ha : a ∈ l) : (f a).Fits room :=
  ⟨total_putEach.mp h.1 a ha, le_trans (image_le_putEach ha) h.2⟩

/-- Bytes with their length, where they fit at all. -/
theorem Script.Fits.bytes {bs : Bytes} (h : (putBytes bs).Fits room) : bs.length < 2 ^ 32 ∧ bs.length ≤ room := by
  obtain ⟨htotal, hlength⟩ := h
  have hbound := (total_putBytes bs).mp htotal
  rw [image_putBytes hbound, length_prefixed] at hlength
  exact ⟨hbound, by omega⟩

end Fits

/-! ## Separation -/

/-- Two encodings with the same bytes are of related values. -/
def Separates {α : Type} (P : α → Prop) (f : α → Script) (R : α → α → Prop) : Prop :=
  ∀ ⦃a a' : α⦄ ⦃rest rest' : Bytes⦄, P a → P a' → (f a).image ++ rest = (f a').image ++ rest' → R a a' ∧ rest = rest'

section Separates

variable {α : Type} {P : α → Prop} {f : α → Script} {R : α → α → Prop}

/-- **`Separates.each`**: by induction on the two lists at once. -/
theorem Separates.each (h : Separates P f R) {l l' : List α} {rest rest' : Bytes} (hlength : l.length = l'.length)
    (hl : ∀ a ∈ l, P a) (hl' : ∀ a ∈ l', P a) (heq : (putEach f l).image ++ rest = (putEach f l').image ++ rest') :
    List.Forall₂ R l l' ∧ rest = rest' := by
  induction l generalizing l' with
  | nil =>
    rw [List.eq_nil_of_length_eq_zero hlength.symm] at heq ⊢
    exact ⟨.nil, heq⟩
  | cons a tail ih =>
    cases l' with
    | nil => simp at hlength
    | cons a' tail' =>
      simp only [putEach_cons, Script.image_append, List.append_assoc] at heq
      obtain ⟨hhead, htail⟩ := h (hl a (by simp)) (hl' a' (by simp)) heq
      obtain ⟨hrelated, hrest⟩ := ih (by simpa using hlength) (fun x hx => hl x (by simp [hx]))
        (fun x hx => hl' x (by simp [hx])) htail
      exact ⟨.cons hhead hrelated, hrest⟩

/-- **`Separates.counted`**: the length that `count` writes is read by `r`. -/
theorem Separates.counted (h : Separates P f R) {r : Reader Nat} {count : Nat → Script} {l l' : List α}
    {rest rest' : Bytes} (hcount : Reads r (count l.length).image (some l.length))
    (hcount' : Reads r (count l'.length).image (some l'.length)) (hl : ∀ a ∈ l, P a) (hl' : ∀ a ∈ l', P a)
    (heq : (count l.length).image ++ ((putEach f l).image ++ rest) =
      (count l'.length).image ++ ((putEach f l').image ++ rest')) : List.Forall₂ R l l' ∧ rest = rest' := by
  obtain ⟨hlength, hitems⟩ := Reads.split hcount hcount' heq
  exact h.each hlength hl hl' hitems

end Separates

end Lib
