import Mackerel.Ide.Driver
import Mathlib.Data.List.Chain

namespace Mackerel.Ide

open Bytes Device

def Access.IsData : Access → Prop
  | .data _ => True
  | _ => False

/-- The data register is read in runs of 256 words, each right behind a status. -/
inductive Runs : List Access → List (List Word) → Prop
  | start : Runs [] []
  | other (accesses : List Access) (sectors : List (List Word)) (access : Access) :
      Runs accesses sectors → ¬access.IsData → Runs (accesses ++ [access]) sectors
  | sector (accesses : List Access) (sectors : List (List Word)) (status : Byte) (words : List Word) :
      Runs (accesses ++ [.status status]) sectors → words.length = 256 →
        Runs (accesses ++ [.status status] ++ words.map Access.data) (sectors ++ [words])

/-- The status before a data word shows BSY clear and DRQ set. -/
def Access.Offers : Access → Access → Prop
  | .status value, .data _ => value &&& IDE_SR_BSY = 0 ∧ value &&& IDE_SR_DRQ ≠ 0
  | _, _ => True

/-- The status behind a data word shows neither ERR nor DF. -/
def Access.Clean : Access → Access → Prop
  | .data _, .status value => value &&& (IDE_SR_ERR ||| IDE_SR_DF) = 0
  | _, _ => True

theorem Access.offers_other (first : Access) {second : Access} (other : ¬second.IsData) :
    first.Offers second := by
  cases second with
  | data word => exact absurd trivial other
  | _ => cases first <;> trivial

theorem Access.clean_other {first : Access} (other : ¬first.IsData) (second : Access) :
    first.Clean second := by
  cases first with
  | data word => exact absurd trivial other
  | _ => trivial

theorem chain_data {Related : Access → Access → Prop} (related : ∀ first second : Word,
    Related (.data first) (.data second)) (words : List Word) :
    (words.map Access.data).IsChain Related := by
  induction words with
  | nil => exact .nil
  | cons word words ih =>
      rw [List.map_cons]
      refine ih.cons fun next head => ?_
      obtain ⟨second, _, rfl⟩ := List.mem_map.mp (List.mem_of_mem_head? head)
      exact related word second

/-- Between the sectors: nothing has gone wrong so far. -/
structure Good (accesses : List Access) (sectors : List (List Word)) : Prop where
  runs : Runs accesses sectors
  offered : accesses.IsChain Access.Offers
  clean : accesses.IsChain Access.Clean
  quiet : ∀ access ∈ accesses.getLast?, ¬access.IsData

variable {accesses : List Access} {sectors : List (List Word)} {words : List Word} {access : Access}

theorem good_start : Good [] [] := ⟨.start, .nil, .nil, by simp⟩

theorem Good.other (good : Good accesses sectors) (other : ¬access.IsData) :
    Good (accesses ++ [access]) sectors where
  runs := .other _ _ _ good.runs other
  offered := good.offered.append (.singleton access) fun first _ second head => by
    obtain rfl : access = second := by simpa using head
    exact first.offers_other other
  clean := good.clean.append (.singleton access) fun first last second _ =>
    Access.clean_other (good.quiet first last) second
  quiet last found := by
    obtain rfl : access = last := by simpa using found
    exact other

/-- A sector and the status behind it. -/
structure Sector (accesses : List Access) (sectors : List (List Word)) (words : List Word) (after : Byte) :
    Prop where
  runs : Runs (accesses ++ words.map Access.data ++ [Access.status after]) (sectors ++ [words])
  offered : (accesses ++ words.map Access.data ++ [Access.status after]).IsChain Access.Offers
  clean : (accesses ++ words.map Access.data ++ [Access.status after]).IsChain Access.Clean ↔
    after &&& (IDE_SR_ERR ||| IDE_SR_DF) = 0

theorem Good.sector (good : Good accesses sectors) {status : Byte}
    (last : accesses.getLast? = some (Access.status status)) (idle : status &&& IDE_SR_BSY = 0)
    (offer : status &&& IDE_SR_DRQ ≠ 0) (size : words.length = 256) (after : Byte) :
    Sector accesses sectors words after := by
  obtain ⟨early, rfl⟩ := List.getLast?_eq_some_iff.mp last
  have data : (early ++ [Access.status status] ++ words.map Access.data).IsChain Access.Offers :=
    good.offered.append (chain_data (fun _ _ => trivial) words) fun first found second head => by
      obtain rfl : Access.status status = first := by simpa using found
      obtain ⟨word, _, rfl⟩ := List.mem_map.mp (List.mem_of_mem_head? head)
      exact ⟨idle, offer⟩
  have words_clean : (early ++ [Access.status status] ++ words.map Access.data).IsChain Access.Clean :=
    good.clean.append (chain_data (fun _ _ => trivial) words) fun first found second _ =>
      Access.clean_other (good.quiet first found) second
  have runs := Runs.sector early sectors status words good.runs size
  obtain ⟨most, word, rfl⟩ : ∃ most word, words = most ++ [word] := by
    have some_words : words ≠ [] := by
      rintro rfl
      simp at size
    exact ⟨words.dropLast, words.getLast some_words, (List.dropLast_append_getLast some_words).symm⟩
  constructor
  · exact .other _ _ _ runs id
  · exact data.append (.singleton _) fun first _ second head => by
      obtain rfl : Access.status after = second := by simpa using head
      exact first.offers_other id
  · have behind : (early ++ [Access.status status] ++ (most ++ [word]).map Access.data).getLast? =
        some (.data word) := by
      rw [List.map_append, ← List.append_assoc]
      exact List.getLast?_concat
    constructor
    · intro chain
      exact (List.isChain_append.mp chain).2.2 _ behind _ rfl
    · intro clean
      refine words_clean.append (.singleton _) fun first found second head => ?_
      obtain rfl : Access.data word = first := Option.some.inj (behind.symm.trans found)
      obtain rfl : Access.status after = second := by simpa using head
      exact clean

theorem Sector.good {after : Byte} (sector : Sector accesses sectors words after)
    (clean : after &&& (IDE_SR_ERR ||| IDE_SR_DF) = 0) :
    Good (accesses ++ words.map Access.data ++ [Access.status after]) (sectors ++ [words]) where
  runs := sector.runs
  offered := sector.offered
  clean := sector.clean.mpr clean
  quiet last found := by
    obtain rfl : Access.status after = last := by simpa using found
    exact id

theorem Runs.sizes (runs : Runs accesses sectors) : ∀ words ∈ sectors, words.length = 256 := by
  induction runs with
  | start => simp
  | other _ _ _ _ _ ih => exact ih
  | sector _ sectors _ words _ size ih =>
      intro sector member
      rcases List.mem_append.mp member with early | last
      · exact ih sector early
      · obtain rfl : sector = words := by simpa using last
        exact size

end Mackerel.Ide
