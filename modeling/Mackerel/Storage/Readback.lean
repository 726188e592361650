import Mathlib.Data.List.Induction
import Mathlib.Data.Set.Function

namespace Storage

/-! Values that are written to places one after the other, and read back from there. Different keys may
lead to one place. -/

variable {α β κ : Type*} [DecidableEq κ]

/-- Each key's value, at the key's place; a later one replaces an earlier one. -/
def writeAll (place : α → κ) (value : α → β) (contents : κ → β) (keys : List α) : κ → β :=
  keys.foldl (fun stored key => Function.update stored (place key) (value key)) contents

variable {place : α → κ} {value : α → β} {contents : κ → β} {keys : List α}

theorem writeAll_concat (key : α) :
    writeAll place value contents (keys ++ [key]) =
      Function.update (writeAll place value contents keys) (place key) (value key) :=
  List.foldl_append

/-- A place holds the value of a key that leads to it, the last one. -/
theorem writeAll_written {spot : κ} (written : ∃ key ∈ keys, place key = spot) :
    ∃ key ∈ keys, place key = spot ∧ writeAll place value contents keys spot = value key := by
  induction keys using List.reverseRecOn with
  | nil =>
      obtain ⟨key, member, _⟩ := written
      cases member
  | append_singleton keys last ih =>
      rw [writeAll_concat]
      by_cases here : place last = spot
      · subst here
        exact ⟨last, List.mem_append_right _ (List.mem_singleton_self last), rfl, Function.update_self ..⟩
      · have earlier : ∃ key ∈ keys, place key = spot := by
          obtain ⟨key, member, leads⟩ := written
          rcases List.mem_append.mp member with before | only
          · exact ⟨key, before, leads⟩
          · rw [List.mem_singleton.mp only] at leads
            exact absurd leads here
        obtain ⟨key, member, leads, stored⟩ := ih earlier
        refine ⟨key, List.mem_append_left _ member, leads, ?_⟩
        rw [Function.update_of_ne (Ne.symm here), stored]

/-- Every key reads its value back exactly if no place is shared by keys of different values. -/
theorem readback_iff :
    (∀ key ∈ keys, writeAll place value contents keys (place key) = value key) ↔
      ∀ first ∈ keys, ∀ second ∈ keys, place first = place second → value first = value second := by
  constructor
  case mp =>
    intro readback first firstMember second secondMember shared
    rw [← readback first firstMember, shared, readback second secondMember]
  case mpr =>
    intro agree key member
    obtain ⟨last, lastMember, shared, stored⟩ :=
      @writeAll_written _ _ _ _ place value contents keys _ ⟨key, member, rfl⟩
    rw [stored]
    exact agree last lastMember key member shared

/-- The keys themselves come back exactly if each has a place of its own. -/
theorem readback_id_iff {contents : κ → α} :
    (∀ key ∈ keys, writeAll place id contents keys (place key) = key) ↔
      Set.InjOn place {key | key ∈ keys} :=
  readback_iff.trans
    ⟨fun agree _ first _ second shared => agree _ first _ second shared,
      fun injective _ first _ second shared => injective first second shared⟩

end Storage
