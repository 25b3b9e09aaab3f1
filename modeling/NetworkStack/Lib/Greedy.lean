import Mathlib.Data.List.Chain
import Mathlib.Order.Basic

/-!
# Greedy chains

Going over a list and taking each element that is far enough from the last one taken gives a
chain. If the list is in order and being far enough is monotone, no chain in the list is longer.
-/

namespace NetworkStack.Greedy

variable {α : Type*} {R : α → α → Prop} {last : α} {ts us chain : List α}

section Chain

variable [DecidableRel R]

/-- The elements that are far enough from the one taken before them. -/
def greedy (R : α → α → Prop) [DecidableRel R] : α → List α → List α
  | _, [] => []
  | last, t :: rest => if R last t then t :: greedy R t rest else greedy R last rest

theorem greedy_sublist : (greedy R last ts).Sublist ts := by
  induction ts generalizing last with
  | nil => exact .slnil
  | cons t rest ih =>
      rw [greedy]
      split
      · exact .cons_cons t ih
      · exact .cons t ih

theorem isChain_greedy : List.IsChain R (last :: greedy R last ts) := by
  induction ts generalizing last with
  | nil => exact .singleton last
  | cons t rest ih =>
      rw [greedy]
      split
      · rename_i hfar
        exact .cons_cons hfar ih
      · exact ih

theorem greedy_append :
    greedy R last (ts ++ us) =
      greedy R last ts ++ greedy R ((greedy R last ts).getLastD last) us := by
  induction ts generalizing last with
  | nil => rfl
  | cons t rest ih =>
      rw [List.cons_append, greedy, greedy]
      split
      · rw [ih, List.cons_append, List.getLastD_cons]
      · exact ih

/-- No chain in the list is longer, even if it starts later. -/
theorem length_le_greedy [Preorder α] (hR : ∀ a b c, a ≤ b → R b c → R a c) {later : α}
    (hlast : last ≤ later) (hts : ts.Pairwise (· ≤ ·)) (hsub : chain.Sublist ts)
    (hchain : List.IsChain R (later :: chain)) : chain.length ≤ (greedy R last ts).length := by
  induction ts generalizing last later chain with
  | nil =>
      rw [List.sublist_nil.mp hsub]
      exact Nat.zero_le _
  | cons t rest ih =>
      rw [List.pairwise_cons] at hts
      rw [greedy]
      cases hsub with
      | cons _ hsub =>
          split
          · cases chain with
            | nil => exact Nat.zero_le _
            | cons d chain =>
                -- The chain takes a later element than `t`, so the rest of it is no longer.
                have hd : t ≤ d := hts.1 d (hsub.subset List.mem_cons_self)
                have hrest := ih hd hts.2 ((List.sublist_cons_self d chain).trans hsub)
                  (List.isChain_cons_cons.mp hchain).2
                exact Nat.succ_le_succ hrest
          · exact ih hlast hts.2 hsub hchain
      | cons_cons _ hsub =>
          obtain ⟨hfar, hchain⟩ := List.isChain_cons_cons.mp hchain
          rw [if_pos (hR _ _ _ hlast hfar)]
          exact Nat.succ_le_succ (ih le_rfl hts.2 hsub hchain)

/-- There are chains of every length up to that of the greedy one. -/
theorem exists_chain_iff [Preorder α] (hR : ∀ a b c, a ≤ b → R b c → R a c)
    (hts : ts.Pairwise (· ≤ ·)) {n : Nat} :
    (∃ chain : List α, chain.Sublist ts ∧ chain.length = n ∧ List.IsChain R (last :: chain)) ↔
      n ≤ (greedy R last ts).length := by
  constructor
  · rintro ⟨chain, hsub, rfl, hchain⟩
    exact length_le_greedy hR le_rfl hts hsub hchain
  · intro hn
    refine ⟨(greedy R last ts).take n, ?_, ?_, ?_⟩
    · exact (List.take_sublist _ _).trans greedy_sublist
    · exact List.length_take_of_le hn
    · have hchain := @isChain_greedy α R last ts _
      rw [← List.take_append_drop n (greedy R last ts), ← List.cons_append] at hchain
      exact hchain.left_of_append

end Chain

end NetworkStack.Greedy
