import Mathlib.Data.List.DropRight
import Mathlib.Data.List.Nodup

set_option autoImplicit false

namespace Slogger.Lib

section Sequence

variable {Entry : Type}

-- Adding at one end of a sequence that holds at most cap entries: a full one
-- first loses the entry at the other end.
def pushLast (cap : Nat) (entries : List Entry) (fresh : Entry) : List Entry :=
  (if entries.length = cap then entries.tail else entries) ++ [fresh]

def pushFirst (cap : Nat) (entries : List Entry) (fresh : Entry) : List Entry :=
  fresh :: (if entries.length = cap then entries.dropLast else entries)

def swapAdjacent : List Entry → Nat → List Entry
  | first :: second :: rest, 0 => second :: first :: rest
  | first :: rest, position + 1 => first :: swapAdjacent rest position
  | entries, _ => entries

theorem push_last_length (cap : Nat) (entries : List Entry) (fresh : Entry) (positive : 0 < cap)
    (within : entries.length ≤ cap) : (pushLast cap entries fresh).length ≤ cap := by
  rw [pushLast]
  split <;> simp <;> omega

theorem push_first_length (cap : Nat) (entries : List Entry) (fresh : Entry) (positive : 0 < cap)
    (within : entries.length ≤ cap) : (pushFirst cap entries fresh).length ≤ cap := by
  rw [pushFirst]
  split <;> simp <;> omega

theorem push_last_map {Other : Type} (change : Entry → Other) (cap : Nat) (entries : List Entry) (fresh : Entry) :
    (pushLast cap entries fresh).map change = pushLast cap (entries.map change) (change fresh) := by
  simp only [pushLast, List.length_map]
  split <;> simp

theorem push_first_map {Other : Type} (change : Entry → Other) (cap : Nat) (entries : List Entry) (fresh : Entry) :
    (pushFirst cap entries fresh).map change = pushFirst cap (entries.map change) (change fresh) := by
  simp only [pushFirst, List.length_map]
  split <;> simp [List.map_dropLast]

@[simp] theorem swap_adjacent_length (entries : List Entry) (position : Nat) :
    (swapAdjacent entries position).length = entries.length := by
  fun_induction swapAdjacent entries position with
  | case1 => rfl
  | case2 first rest position ih => simp [ih]
  | case3 => rfl

theorem swap_adjacent_append (left right : List Entry) (first second : Entry) :
    swapAdjacent (left ++ first :: second :: right) left.length = left ++ second :: first :: right := by
  induction left with
  | nil => rfl
  | cons entry left ih => simp [swapAdjacent, ih]

theorem swap_adjacent_last (left : List Entry) (last : Entry) :
    swapAdjacent (left ++ [last]) left.length = left ++ [last] := by
  induction left with
  | nil => rfl
  | cons entry left ih => simp [swapAdjacent, ih]

theorem swap_adjacent_map {Other : Type} (change : Entry → Other) (entries : List Entry) (position : Nat) :
    (swapAdjacent entries position).map change = swapAdjacent (entries.map change) position := by
  fun_induction swapAdjacent entries position with
  | case1 => rfl
  | case2 first rest position ih => simp [swapAdjacent, ih]
  | case3 entries position noPair noStep =>
      match entries, position with
      | [], _ => rfl
      | [entry], 0 => rfl
      | first :: second :: rest, 0 => exact absurd rfl (noPair first second rest rfl)
      | first :: rest, position + 1 => exact absurd rfl (noStep first rest position rfl)

theorem rtake_push_last (cap : Nat) (entries : List Entry) (fresh : Entry) (positive : 0 < cap) :
    (entries ++ [fresh]).rtake cap = pushLast cap (entries.rtake cap) fresh := by
  obtain ⟨shorter, rfl⟩ := Nat.exists_eq_succ_of_ne_zero (Nat.ne_of_gt positive)
  rw [List.rtake_concat_succ, pushLast]
  by_cases full : shorter + 1 ≤ entries.length
  · have length : (entries.rtake (shorter + 1)).length = shorter + 1 := by
      simp only [List.rtake, List.length_drop]
      omega
    rw [if_pos length]
    simp only [List.rtake, List.tail_drop]
    congr 2
    omega
  · have length : (entries.rtake (shorter + 1)).length ≠ shorter + 1 := by
      simp only [List.rtake, List.length_drop]
      omega
    rw [if_neg length]
    simp only [List.rtake]
    congr 2
    omega

theorem push_last_fold (cap : Nat) (entries fresh : List Entry) (positive : 0 < cap)
    (within : entries.length ≤ cap) :
    fresh.foldl (pushLast cap) entries = (entries ++ fresh).rtake cap := by
  induction fresh using List.reverseRecOn with
  | nil => simp [List.rtake, Nat.sub_eq_zero_of_le within]
  | append_singleton fresh last ih =>
      rw [List.foldl_append, ih, ← List.append_assoc, rtake_push_last cap _ last positive]
      rfl

theorem push_first_reverse (cap : Nat) (entries : List Entry) (fresh : Entry) :
    (pushFirst cap entries fresh).reverse = pushLast cap entries.reverse fresh := by
  rw [pushFirst, pushLast, List.reverse_cons, List.length_reverse]
  by_cases full : entries.length = cap
  · rw [if_pos full, if_pos full, List.tail_reverse]
  · rw [if_neg full, if_neg full]

theorem push_first_fold (cap : Nat) (entries added : List Entry) :
    (added.foldl (pushFirst cap) entries).reverse = added.foldl (pushLast cap) entries.reverse := by
  induction added generalizing entries with
  | nil => rfl
  | cons fresh rest ih => rw [List.foldl_cons, ih, push_first_reverse, List.foldl_cons]

-- No entry occurs twice, and each entry there was is still there except the
-- one that was evicted.
def Kept (entries result : List Entry) (evicted : Option Entry) : Prop :=
  result.Nodup ∧ ∀ other ∈ entries, other ∈ result ∨ evicted = some other

theorem push_last_kept (cap : Nat) (entries : List Entry) (fresh : Entry) (distinct : entries.Nodup)
    (new : fresh ∉ entries) :
    Kept entries (pushLast cap entries fresh) (if entries.length = cap then entries.head? else none) := by
  rw [pushLast]
  by_cases full : entries.length = cap
  · rw [if_pos full, if_pos full]
    cases entries with
    | nil => exact ⟨by simp, by simp⟩
    | cons first rest =>
        obtain ⟨_, remaining⟩ := List.nodup_cons.mp distinct
        have apart : fresh ∉ rest := fun member => new (List.mem_cons_of_mem first member)
        refine ⟨?_, ?_⟩
        · rw [List.tail_cons, ← List.concat_eq_append]
          exact remaining.concat apart
        · intro other member
          rcases List.mem_cons.mp member with rfl | later
          · exact .inr rfl
          · exact .inl (List.mem_append_left _ later)
  · rw [if_neg full, if_neg full]
    refine ⟨?_, fun other member => .inl (List.mem_append_left _ member)⟩
    rw [← List.concat_eq_append]
    exact distinct.concat new

theorem push_first_kept (cap : Nat) (entries : List Entry) (fresh : Entry) (distinct : entries.Nodup)
    (new : fresh ∉ entries) :
    Kept entries (pushFirst cap entries fresh) (if entries.length = cap then entries.getLast? else none) := by
  obtain ⟨unrepeated, others⟩ :=
    push_last_kept cap entries.reverse fresh (List.nodup_reverse.mpr distinct) (by simpa using new)
  rw [← push_first_reverse] at unrepeated others
  refine ⟨List.nodup_reverse.mp unrepeated, ?_⟩
  intro other member
  simpa using others other (List.mem_reverse.mpr member)

-- Where each source yields its one image when it is short, and when it is not
-- yields something that does not end in its image: the newest cap results are
-- the images exactly when the newest cap sources are short.
theorem newest_images_iff {Source : Type} (cap : Nat) (old : List Entry) (sources : List Source)
    (yields : Source → List Entry) (image : Source → Entry) (Short : Source → Prop)
    (short : ∀ source ∈ sources, Short source → yields source = [image source])
    (long : ∀ source ∈ sources, ¬ Short source →
      ∃ front last, yields source = front ++ [last] ∧ last ≠ image source) :
    (old ++ sources.flatMap yields).rtake cap = (old ++ sources.map image).rtake cap ↔
      ∀ source ∈ sources.rtake cap, Short source := by
  induction sources using List.reverseRecOn generalizing cap with
  | nil => simp
  | append_singleton front source ih =>
      cases cap with
      | zero => simp only [List.rtake_zero, List.not_mem_nil, false_implies, implies_true]
      | succ cap =>
          have earlier := ih cap (fun other member => short other (List.mem_append_left _ member))
            (fun other member => long other (List.mem_append_left _ member))
          have here : source ∈ front ++ [source] := by simp
          rw [List.flatMap_append, List.flatMap_singleton, List.map_append, List.map_singleton, ← List.append_assoc,
            ← List.append_assoc, List.rtake_concat_succ, List.rtake_concat_succ]
          by_cases fits : Short source
          · rw [short source here fits, List.rtake_concat_succ]
            simp only [List.append_left_inj, List.forall_mem_append, List.forall_mem_singleton, fits, and_true]
            exact earlier
          · obtain ⟨others, last, split, different⟩ := long source here fits
            rw [split, ← List.append_assoc, List.rtake_concat_succ]
            refine iff_of_false ?_ ?_
            · exact fun same => different (List.cons.inj (List.append_inj' same rfl).2).1
            · exact fun every => fits (every source (by simp))

theorem push_last_subset (cap : Nat) (entries : List Entry) (fresh : Entry) :
    pushLast cap entries fresh ⊆ entries ++ [fresh] := by
  rw [pushLast]
  split
  · exact List.append_subset.mpr ⟨List.Subset.trans (List.tail_sublist entries).subset (List.subset_append_left _ _),
      List.subset_append_right _ _⟩
  · exact List.Subset.refl _

theorem push_first_subset (cap : Nat) (entries : List Entry) (fresh : Entry) :
    pushFirst cap entries fresh ⊆ entries ++ [fresh] := by
  rw [pushFirst]
  intro entry member
  rcases List.mem_cons.mp member with rfl | kept
  · simp
  · split at kept
    · exact List.mem_append_left _ ((List.dropLast_sublist entries).subset kept)
    · exact List.mem_append_left _ kept

theorem fold_push_last_subset (cap : Nat) (entries added : List Entry) :
    added.foldl (pushLast cap) entries ⊆ entries ++ added := by
  induction added generalizing entries with
  | nil => simp
  | cons fresh rest ih =>
      have first := push_last_subset cap entries fresh
      rw [List.foldl_cons, List.append_cons]
      exact List.Subset.trans (ih _) (List.append_subset.mpr
        ⟨List.Subset.trans first (List.subset_append_left _ _), List.subset_append_right _ _⟩)

end Sequence

end Slogger.Lib
