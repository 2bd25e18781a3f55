import Mathlib.Data.List.Basic

/-!
# Lists that grow at the end

Logs and queues of the modelled program gain one item at a time.
-/

namespace Ironclaw.Lib

theorem forall_mem_concat
    {Item : Type} {holds : Item → Prop} {items : List Item} {item : Item}
    (earlier : ∀ each ∈ items, holds each) (last : holds item) :
    ∀ each ∈ items ++ [item], holds each := by
  rw [List.forall_mem_append, List.forall_mem_singleton]
  exact ⟨earlier, last⟩

/-- One more item, if there is a reason for it. -/
def concatIf
    {Item : Type} (reason : Prop) [Decidable reason] (items : List Item)
    (item : Item) : List Item :=
  if reason then items ++ [item] else items

section ConcatIf

variable {Item : Type} {reason : Prop} [Decidable reason]
variable {items : List Item} {item : Item}

theorem subset_concatIf : items ⊆ concatIf reason items item := by
  rw [concatIf]
  split
  · exact List.subset_append_left _ _
  · exact List.Subset.refl _

theorem mem_concatIf (given : reason) :
    item ∈ concatIf reason items item := by
  rw [concatIf, if_pos given]
  exact List.mem_append_right _ (List.mem_singleton_self _)

theorem forall_mem_concatIf
    {holds : Item → Prop} (earlier : ∀ each ∈ items, holds each)
    (last : reason → holds item) :
    ∀ each ∈ concatIf reason items item, holds each := by
  rw [concatIf]
  split
  · rename_i given
    exact forall_mem_concat earlier (last given)
  · exact earlier

end ConcatIf

end Ironclaw.Lib
