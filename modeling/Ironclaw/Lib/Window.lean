import Mathlib.Data.List.Chain
import Mathlib.Data.List.Count

/-!
# Windows of a rate limit

A limiter keeps the start of its window and how often the window was used.  The
first use opens a window, and so does a use that comes a whole length after the
start.  `Paced` relates the two numbers to what has happened: the starts of all
windows, and for every use the start of the window in which it was.

The windows are a length apart, and where there is a limit no window is used
more often.  A limit of zero is none.
-/

namespace Ironclaw.Lib.Window

open List

/-- The starts of the windows and their uses, with the limiter's numbers. -/
structure Paced
    (length limit start used : Nat) (starts uses : List Nat) : Prop where
  last : start = 0 ∧ starts = [] ∨ start ≠ 0 ∧ starts.getLast? = some start
  spaced : starts.IsChain fun first second => first + length ≤ second
  below : ∀ window ∈ starts, window ≤ start
  opened : ∀ window ∈ uses, window ∈ starts
  capped : limit ≠ 0 → uses.count start ≤ used ∧ used ≤ limit ∧
      ∀ window, uses.count window ≤ limit

variable {length limit start used : Nat} {starts uses : List Nat}

theorem Paced.unused : Paced length limit 0 0 [] [] where
  last := Or.inl ⟨rfl, rfl⟩
  spaced := isChain_nil
  below := forall_mem_nil _
  opened := forall_mem_nil _
  capped := fun _ => ⟨le_rfl, Nat.zero_le _, fun _ => Nat.zero_le _⟩

theorem count_append_replicate (uses : List Nat) (amount now window : Nat) :
    (uses ++ List.replicate amount now).count window =
      uses.count window + if now = window then amount else 0 := by
  rw [count_append, count_replicate]
  simp only [beq_iff_eq]

/-- The next window is opened, and used at most once. -/
theorem Paced.next (paced : Paced length limit start used starts uses)
    (positive : 0 < length) {now amount : Nat}
    (due : start = 0 ∨ start + length ≤ now) (nonzero : now ≠ 0)
    (single : amount ≤ 1) :
    Paced length limit now 1 (starts ++ [now])
      (uses ++ List.replicate amount now) := by
  have later : start < now := by omega
  have fresh : uses.count now = 0 := by
    apply count_eq_zero_of_not_mem
    intro used
    have early := paced.below now (paced.opened now used)
    exact absurd early (Nat.not_le.mpr later)
  constructor
  · exact Or.inr ⟨nonzero, List.getLast?_concat⟩
  · apply isChain_append.mpr
    refine ⟨paced.spaced, isChain_singleton _, ?_⟩
    intro first isLast second isFirst
    cases isFirst
    rcases paced.last with ⟨_, empty⟩ | ⟨inUse, last⟩
    · rw [empty] at isLast
      cases isLast
    · rw [last] at isLast
      cases isLast
      exact due.resolve_left inUse
  · intro window member
    rcases mem_append.mp member with old | new
    · exact (paced.below window old).trans later.le
    · exact (mem_singleton.mp new).le
  · intro window member
    rcases mem_append.mp member with old | new
    · exact mem_append_left _ (paced.opened window old)
    · rw [(mem_replicate.mp new).2]
      exact mem_append_right _ (mem_singleton_self now)
  · intro limited
    have once : (uses ++ List.replicate amount now).count now ≤ 1 := by
      rw [count_append_replicate, if_pos rfl, fresh]
      omega
    refine ⟨once, Nat.one_le_iff_ne_zero.mpr limited, ?_⟩
    intro window
    by_cases same : now = window
    · rw [← same]
      exact once.trans (Nat.one_le_iff_ne_zero.mpr limited)
    · rw [count_append_replicate, if_neg same]
      exact (paced.capped limited).2.2 window

/-- The window is used once more, or the use is given up. -/
theorem Paced.again
    (paced : Paced length limit start used starts uses) (inUse : start ≠ 0)
    {next amount : Nat} (room : limit ≠ 0 → used < limit ∧ next = used + 1)
    (single : amount ≤ 1) :
    Paced length limit start next starts
      (uses ++ List.replicate amount start) := by
  constructor
  · exact paced.last
  · exact paced.spaced
  · exact paced.below
  · intro window member
    rcases mem_append.mp member with old | new
    · exact paced.opened window old
    · rw [(mem_replicate.mp new).2]
      rcases paced.last with ⟨zero, _⟩ | ⟨_, last⟩
      · exact absurd zero inUse
      · exact mem_of_getLast? last
  · intro limited
    rcases paced.capped limited with ⟨current, _, all⟩
    rcases room limited with ⟨free, counted⟩
    have here : (uses ++ List.replicate amount start).count start ≤
        next := by
      rw [count_append_replicate, if_pos rfl]
      omega
    have few : next ≤ limit := by omega
    refine ⟨here, few, ?_⟩
    intro window
    by_cases same : start = window
    · rw [← same]
      exact here.trans few
    · rw [count_append_replicate, if_neg same]
      exact all window

end Ironclaw.Lib.Window
