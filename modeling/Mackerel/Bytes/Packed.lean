import Mackerel.Bytes.Memory
import Mathlib.Algebra.Ring.Nat

namespace Bytes

/-! Packed structures in a block, and fields whose bytes are put in the opposite order. -/

/-- The place of a field. -/
structure Span where
  first : Nat
  width : Nat

namespace Span

def Has (span : Span) (i : Nat) : Prop := span.first ≤ i ∧ i < span.first + span.width

instance (span : Span) (i : Nat) : Decidable (span.Has i) := inferInstanceAs (Decidable (_ ∧ _))

def Apart (left right : Span) : Prop :=
  left.first + left.width ≤ right.first ∨ right.first + right.width ≤ left.first

/-- The opposite place in the field. -/
def mirror (span : Span) (i : Nat) : Nat :=
  if span.Has i then span.first + (span.first + span.width - 1 - i) else i

def reverse (span : Span) (bytes : Block) : Block := fun i => bytes (span.mirror i)

/-- One field after the other. -/
def reverseAll (spans : List Span) (bytes : Block) : Block :=
  spans.foldl (fun bytes span => span.reverse bytes) bytes

variable {span left right : Span} {spans : List Span} {bytes : Block} {i : Nat}

theorem Apart.symm (apart : left.Apart right) : right.Apart left := Or.symm apart

theorem Apart.not_has (apart : left.Apart right) (here : left.Has i) : ¬right.Has i := by
  unfold Has Apart at *
  omega

theorem mirror_of_not_has (outside : ¬span.Has i) : span.mirror i = i := if_neg outside

theorem mirror_of_has (here : span.Has i) :
    span.mirror i = span.first + (span.first + span.width - 1 - i) := if_pos here

theorem has_mirror (here : span.Has i) : span.Has (span.mirror i) := by
  rw [mirror_of_has here]
  unfold Has at *
  omega

theorem mirror_mirror : span.mirror (span.mirror i) = i := by
  by_cases here : span.Has i
  · rw [mirror_of_has (has_mirror here), mirror_of_has here]
    unfold Has at here
    omega
  · rw [mirror_of_not_has here, mirror_of_not_has here]

theorem has_add {j : Nat} (within : j < span.width) : span.Has (span.first + j) :=
  ⟨Nat.le_add_right _ _, Nat.add_lt_add_left within _⟩

theorem mirror_add (span : Span) {j : Nat} (within : j < span.width) :
    span.mirror (span.first + j) = span.first + (span.width - 1 - j) := by
  rw [mirror_of_has (has_add within)]
  omega

theorem reverseAll_of_not_has (outside : ∀ span ∈ spans, ¬span.Has i) : reverseAll spans bytes i = bytes i := by
  induction spans generalizing bytes with
  | nil => rfl
  | cons span spans ih =>
      have rest : reverseAll spans (span.reverse bytes) i = span.reverse bytes i :=
        ih fun other member => outside other (List.mem_cons_of_mem _ member)
      rw [reverseAll, List.foldl_cons, ← reverseAll, rest, reverse,
        mirror_of_not_has (outside span List.mem_cons_self)]

theorem reverseAll_of_has (apart : spans.Pairwise Apart) (member : span ∈ spans) (here : span.Has i) :
    reverseAll spans bytes i = bytes (span.mirror i) := by
  induction spans generalizing bytes with
  | nil => cases member
  | cons other spans ih =>
      obtain ⟨first, rest⟩ := List.pairwise_cons.mp apart
      rw [reverseAll, List.foldl_cons, ← reverseAll]
      cases List.mem_cons.mp member with
      | inl same =>
          subst same
          exact reverseAll_of_not_has fun later member => (first later member).not_has here
      | inr later =>
          have free : ¬other.Has (span.mirror i) := (first span later).symm.not_has (has_mirror here)
          rw [ih rest later, reverse, mirror_of_not_has free]

/-- The second time every byte goes back to its place. -/
theorem reverseAll_reverseAll (apart : spans.Pairwise Apart) :
    reverseAll spans (reverseAll spans bytes) = bytes := by
  funext i
  by_cases some_span : ∃ span ∈ spans, span.Has i
  · obtain ⟨span, member, here⟩ := some_span
    rw [reverseAll_of_has apart member here, reverseAll_of_has apart member (has_mirror here), mirror_mirror]
  · have outside : ∀ span ∈ spans, ¬span.Has i := fun span member here => some_span ⟨span, member, here⟩
    rw [reverseAll_of_not_has outside, reverseAll_of_not_has outside]

end Span

/-- The fields of a packed structure in the order of their declaration. -/
structure Layout (φ : Type) where
  declared : List φ
  size : φ → Nat
  complete : ∀ field, field ∈ declared

namespace Layout

variable {φ : Type} [DecidableEq φ]

def offsetIn (size : φ → Nat) (field : φ) : List φ → Nat
  | [] => 0
  | first :: rest => if first = field then 0 else size first + offsetIn size field rest

variable (layout : Layout φ)

def offset (field : φ) : Nat := offsetIn layout.size field layout.declared

def total : Nat := (layout.declared.map layout.size).sum

/-- A field of the structure at an address. -/
def span (base : Nat) (field : φ) : Span := ⟨base + layout.offset field, layout.size field⟩

theorem offsetIn_add_size_le (size : φ → Nat) {field : φ} {fields : List φ} (member : field ∈ fields) :
    offsetIn size field fields + size field ≤ (fields.map size).sum := by
  induction fields with
  | nil => cases member
  | cons first rest ih =>
      rw [offsetIn, List.map_cons, List.sum_cons]
      split
      case isTrue same =>
        subst same
        omega
      case isFalse other =>
        have later := ih (List.mem_of_ne_of_mem (Ne.symm other) member)
        omega

theorem offsetIn_apart (size : φ → Nat) {left right : φ} {fields : List φ} (distinct : left ≠ right)
    (leftIn : left ∈ fields) (rightIn : right ∈ fields) :
    offsetIn size left fields + size left ≤ offsetIn size right fields ∨
      offsetIn size right fields + size right ≤ offsetIn size left fields := by
  induction fields with
  | nil => cases leftIn
  | cons first rest ih =>
      rw [offsetIn, offsetIn]
      by_cases isLeft : first = left
      · subst isLeft
        rw [if_pos rfl, if_neg distinct]
        omega
      · by_cases isRight : first = right
        · subst isRight
          rw [if_pos rfl, if_neg isLeft]
          omega
        · rw [if_neg isLeft, if_neg isRight]
          have later := ih (List.mem_of_ne_of_mem (Ne.symm isLeft) leftIn)
            (List.mem_of_ne_of_mem (Ne.symm isRight) rightIn)
          omega

/-- No byte belongs to two fields. -/
theorem span_apart (base : Nat) {left right : φ} (distinct : left ≠ right) :
    (layout.span base left).Apart (layout.span base right) := by
  have apart := offsetIn_apart layout.size distinct (layout.complete left) (layout.complete right)
  unfold Span.Apart span offset
  dsimp only
  omega

theorem spans_pairwise (base : Nat) {fields : List φ} (distinct : fields.Nodup) :
    (fields.map (layout.span base)).Pairwise Span.Apart :=
  List.pairwise_map.mpr (distinct.imp fun other => layout.span_apart base other)

theorem inside_of_has {base i : Nat} {field : φ} (here : (layout.span base field).Has i) :
    base ≤ i ∧ i < base + layout.total := by
  have within : layout.offset field + layout.size field ≤ layout.total :=
    offsetIn_add_size_le layout.size (layout.complete field)
  unfold Span.Has span at here
  dsimp only at here
  omega

end Layout

end Bytes
