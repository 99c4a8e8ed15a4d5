import SantaIWish.Models.Representations

/-!
# Encoding and decoding the representations

Letters and items read back what they wrote. A child does not: its encoder
writes arrays where its decoder expects dictionaries, and a parent reads back
only when no child stands in its list.
-/

namespace SantaIWish
set_option autoImplicit false

structure ChildRepresentation.Same (c d : ChildRepresentation) : Prop where
  name : c.name = d.name
  age : c.age = d.age
  letters : c.letters.Perm d.letters
  items : c.items.Perm d.items

structure ParentRepresentation.Same (p q : ParentRepresentation) : Prop where
  name : p.name = q.name
  children : Option.Rel (List.Forall₂ ChildRepresentation.Same) p.children q.children

def ChildRepresentation.RoundTrips (c : ChildRepresentation) : Prop :=
  ∃ d, ChildRepresentation.decoder c.encode = .ok d ∧ d.Same c

def ParentRepresentation.RoundTrips (p : ParentRepresentation) : Prop :=
  ∃ q, ParentRepresentation.decoder p.encode = .ok q ∧ q.Same p

theorem decode_encode_child (c : ChildRepresentation) :
    ChildRepresentation.decoder c.encode = .error .typeMismatch := rfl

theorem child_not_roundTrips (c : ChildRepresentation) : ¬ c.RoundTrips := by
  intro hh
  obtain ⟨d, hd, _⟩ := hh
  rw [decode_encode_child] at hd
  cases hd

theorem decode_encode_parent_nil (name : String) :
    ParentRepresentation.decoder (ParentRepresentation.encode ⟨name, none⟩) = .ok ⟨name, none⟩ := rfl

theorem decode_encode_parent_empty (name : String) :
    ParentRepresentation.decoder (ParentRepresentation.encode ⟨name, some []⟩) =
      .ok ⟨name, some []⟩ := rfl

theorem decode_encode_parent_cons (name : String) (c : ChildRepresentation)
    (cs : List ChildRepresentation) :
    ParentRepresentation.decoder (ParentRepresentation.encode ⟨name, some (c :: cs)⟩) =
      .error .typeMismatch := by
  have harray : Decoder.array ChildRepresentation.decoder
      (.arr ((c :: cs).map ChildRepresentation.encode)) = .error .typeMismatch := by
    simp only [Decoder.array, List.map_cons, List.mapM_cons, decode_encode_child]
    rfl
  have hread : ParentRepresentation.decoder (ParentRepresentation.encode ⟨name, some (c :: cs)⟩) =
      (Decoder.array ChildRepresentation.decoder (.arr ((c :: cs).map ChildRepresentation.encode))
        |>.map some).map fun children => ⟨name, children⟩ := rfl
  rw [hread, harray]
  rfl

theorem parent_roundTrips_iff (p : ParentRepresentation) :
    p.RoundTrips ↔ p.children = none ∨ p.children = some [] := by
  obtain ⟨name, children⟩ := p
  match children with
  | none => exact iff_of_true ⟨_, decode_encode_parent_nil name, rfl, .none⟩ (Or.inl rfl)
  | some [] =>
    exact iff_of_true ⟨_, decode_encode_parent_empty name, rfl, .some .nil⟩ (Or.inr rfl)
  | some (c :: cs) =>
    refine iff_of_false ?_ (by simp)
    intro hh
    obtain ⟨q, hq, _⟩ := hh
    rw [decode_encode_parent_cons] at hq
    cases hq

/-- Exactly which representations survive encoding and decoding: no child, and a parent whose list of
children is missing or empty. -/
theorem codec_roundTrips_iff (c : ChildRepresentation) (p : ParentRepresentation) :
    ¬ c.RoundTrips ∧ (p.RoundTrips ↔ p.children = none ∨ p.children = some []) :=
  ⟨child_not_roundTrips c, parent_roundTrips_iff p⟩

theorem codec_refuses_ann :
    ¬ ChildRepresentation.RoundTrips ⟨"Ann", "7", [], []⟩ ∧
      ¬ ParentRepresentation.RoundTrips ⟨"Lee", some [⟨"Ann", "7", [], []⟩]⟩ := by
  refine ⟨child_not_roundTrips _, fun h => ?_⟩
  have hnone := (parent_roundTrips_iff _).mp h
  simp at hnone

end SantaIWish
