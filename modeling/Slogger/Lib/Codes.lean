import Mathlib.Data.Set.Basic

set_option autoImplicit false

namespace Slogger.Lib

section Words

variable {β : Type} (words : Set (List β))

-- No word is the beginning of another one, so a text is cut into words in one way.
def PrefixFree : Prop := ∀ word ∈ words, ∀ other ∈ words, word <+: other → word = other

theorem prefix_free_split (free : PrefixFree words) (word other rest more : List β) (inside : word ∈ words)
    (there : other ∈ words) (same : word ++ rest = other ++ more) : word = other ∧ rest = more := by
  have begins : word <+: other ++ more := ⟨rest, same⟩
  have alike : word = other := by
    rcases Nat.le_total word.length other.length with shorter | longer
    · exact free word inside other there (List.prefix_of_prefix_length_le begins (List.prefix_append other more) shorter)
    · exact (free other there word inside
        (List.prefix_of_prefix_length_le (List.prefix_append other more) begins longer)).symm
  subst alike
  exact ⟨rfl, List.append_cancel_left same⟩

theorem prefix_free_flatten (free : PrefixFree words) (nonempty : [] ∉ words) (front whole : List (List β))
    (inside : ∀ word ∈ front, word ∈ words) (there : ∀ word ∈ whole, word ∈ words) :
    front.flatten <+: whole.flatten ↔ front <+: whole := by
  constructor
  · intro begins
    induction front generalizing whole with
    | nil => exact List.nil_prefix
    | cons word front ih =>
        have first := inside word List.mem_cons_self
        obtain ⟨rest, same⟩ := begins
        cases whole with
        | nil =>
            have empty : word = [] := by simp_all
            exact absurd (empty ▸ first) nonempty
        | cons other whole =>
            rw [List.flatten_cons, List.flatten_cons, List.append_assoc] at same
            obtain ⟨rfl, behind⟩ := prefix_free_split words free word other _ _ first (there other List.mem_cons_self) same
            have later := ih whole (fun word member => inside word (List.mem_cons_of_mem _ member))
              (fun word member => there word (List.mem_cons_of_mem _ member)) ⟨rest, behind⟩
            exact List.cons_prefix_cons.mpr ⟨rfl, later⟩
  · rintro ⟨rest, rfl⟩
    rw [List.flatten_append]
    exact List.prefix_append _ _

end Words

theorem ended_prefix_free {β : Type} (stop : β) :
    PrefixFree {word | ∃ line : List β, stop ∉ line ∧ word = line ++ [stop]} := by
  rintro word ⟨line, clean, rfl⟩ other ⟨longer, cleaner, rfl⟩ begins
  rcases List.prefix_concat_iff.mp begins with same | inside
  · exact same
  · exact absurd (inside.subset (by simp)) cleaner

theorem map_prefix_iff {α β γ : Type} (read : α → β) (told : α → γ) (front whole : List α)
    (alike : ∀ first ∈ front, ∀ second ∈ whole, read first = read second ↔ told first = told second) :
    front.map read <+: whole.map read ↔ front.map told <+: whole.map told := by
  induction front generalizing whole with
  | nil => simp
  | cons first front ih =>
      cases whole with
      | nil => simp
      | cons second whole =>
          have heads := alike first List.mem_cons_self second List.mem_cons_self
          have tails := ih whole fun first here second there =>
            alike first (List.mem_cons_of_mem _ here) second (List.mem_cons_of_mem _ there)
          rw [List.map_cons, List.map_cons, List.map_cons, List.map_cons, List.cons_prefix_cons, List.cons_prefix_cons, heads,
            tails]

end Slogger.Lib
