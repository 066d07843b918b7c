import Mathlib

/-!
# Binary trees built level by level, and in place

A level of a binary tree over a list combines neighbours in pairs; an odd list's last element is
combined with itself (`pairLevel`). The root is the one element left after level upon level
(`treeRoot`).

A loop that builds a level in the list it reads, `l[i] := f l[2i] l[2i+1]` for `i` upward
(`pairInPlace`), reads entries `2i` and `2i + 1` before anything writes them, since every write
so far went below `i`. After `m` rounds the list is the level of its first `2m` entries followed
by what was there from `m` on (`pairInPlace_eq`).

Nothing in this file names the node.
-/

namespace KwilDb.Lib

variable {α : Type} (f : α → α → α)

/-- One level up a binary tree: neighbours combined in pairs, an element without a right
neighbour combined with itself. -/
def pairLevel : List α → List α
  | a :: b :: l => f a b :: pairLevel l
  | [a] => [f a a]
  | [] => []

@[simp] lemma length_pairLevel (l : List α) : (pairLevel f l).length = (l.length + 1) / 2 := by
  fun_induction pairLevel f l with
  | case1 a b l ih =>
    simp only [List.length_cons, ih]
    omega
  | case2 a => simp
  | case3 => simp

/-- Two more elements after an even list add one parent. -/
lemma pairLevel_append_pair {l : List α} (hl : l.length % 2 = 0) (a b : α) :
    pairLevel f (l ++ [a, b]) = pairLevel f l ++ [f a b] := by
  fun_induction pairLevel f l with
  | case1 a' b' l ih =>
    rw [List.cons_append, List.cons_append, pairLevel, ih (by simp at hl; omega), List.cons_append]
  | case2 a' => simp at hl
  | case3 => rfl

/-- One more element after an even list is its own parent's two children. -/
lemma pairLevel_append_single {l : List α} (hl : l.length % 2 = 0) (a : α) :
    pairLevel f (l ++ [a]) = pairLevel f l ++ [f a a] := by
  fun_induction pairLevel f l with
  | case1 a' b' l ih =>
    rw [List.cons_append, List.cons_append, pairLevel, ih (by simp at hl; omega), List.cons_append]
  | case2 a' => simp at hl
  | case3 => rfl

/-- Repeating the last element of an odd list leaves its level as it is. -/
lemma pairLevel_append_getLast {l : List α} (hl : l.length % 2 = 1) (hne : l ≠ []) :
    pairLevel f (l ++ [l.getLast hne]) = pairLevel f l := by
  obtain ⟨l', a, rfl⟩ : ∃ l' a, l = l' ++ [a] :=
    ⟨l.dropLast, l.getLast hne, (List.dropLast_append_getLast hne).symm⟩
  have hl' : l'.length % 2 = 0 := by simp at hl; omega
  rw [List.getLast_concat, List.append_assoc, List.singleton_append,
    pairLevel_append_pair f hl', pairLevel_append_single f hl']

/-- The root of the tree over `l`, level by level: `zero` over no leaves, the leaf over one. -/
def treeRoot (zero : α) (l : List α) : α :=
  match l with
  | [] => zero
  | [a] => a
  | a :: b :: l => treeRoot zero (pairLevel f (a :: b :: l))
termination_by l.length
decreasing_by simp only [length_pairLevel, List.length_cons]; omega

/-- Over two or more leaves the root is the root of the level above. -/
lemma treeRoot_of_two_le (zero : α) {l : List α} (hl : 2 ≤ l.length) :
    treeRoot f zero l = treeRoot f zero (pairLevel f l) := by
  match l, hl with
  | a :: b :: l, _ => rw [treeRoot]

/-! ### In place -/

variable [Inhabited α]

/-- The inner loop of a level built in place: for `i < m`, upward, `l[i] := f l[2i] l[2i+1]`. -/
def pairInPlace (l : List α) (m : ℕ) : List α :=
  (List.range m).foldl (fun l i => l.set i (f l[2 * i]! l[2 * i + 1]!)) l

@[simp] lemma length_pairInPlace (l : List α) (m : ℕ) : (pairInPlace f l m).length = l.length := by
  unfold pairInPlace
  induction m with
  | zero => rfl
  | succ m ih => rw [List.range_succ, List.foldl_append, List.foldl_cons, List.foldl_nil,
      List.length_set, ih]

/-- **The loop invariant.** After `m` rounds the first `m` entries are the parents of the first
`2m`, and the entries from `m` on are untouched; round `m` reads `2m` and `2m + 1`, at or after
`m`, so it reads the leaves themselves. -/
theorem pairInPlace_eq (l : List α) {m : ℕ} (hm : 2 * m ≤ l.length) :
    pairInPlace f l m = pairLevel f (l.take (2 * m)) ++ l.drop m := by
  induction m with
  | zero => simp [pairInPlace, pairLevel]
  | succ m ih =>
    have ih' := ih (by omega)
    have hlen : (pairLevel f (l.take (2 * m))).length = m := by simp; omega
    -- the two children of round `m`, read past the parents written so far
    have hget (j : ℕ) (hj : m ≤ j) (hjl : j < l.length) :
        (pairLevel f (l.take (2 * m)) ++ l.drop m)[j]! = l[j] := by
      rw [getElem!_pos _ j (by simp; omega), List.getElem_append_right (by omega),
        List.getElem_drop]
      congr 1
      omega
    have htake : l.take (2 * (m + 1)) = l.take (2 * m) ++ [l[2 * m], l[2 * m + 1]] := by
      rw [show 2 * (m + 1) = 2 * m + 1 + 1 by ring, List.take_succ_eq_append_getElem (by omega),
        List.take_succ_eq_append_getElem (by omega), List.append_assoc]
      rfl
    have hml : m < l.length := by omega
    have hdrop : l.drop m = l[m] :: l.drop (m + 1) := List.drop_eq_getElem_cons hml
    rw [pairInPlace, List.range_succ, List.foldl_append, ← pairInPlace, ih', List.foldl_cons,
      List.foldl_nil, hget (2 * m) (by omega) (by omega), hget (2 * m + 1) (by omega) (by omega),
      List.set_append_right _ _ (by omega), hlen, Nat.sub_self, hdrop, List.set_cons_zero, htake,
      pairLevel_append_pair f (by simp; omega), List.append_assoc, List.singleton_append]

/-- A whole level in place: over an even list, the first half of the loop's result is the level
above. -/
theorem take_pairInPlace {l : List α} (hl : l.length % 2 = 0) :
    (pairInPlace f l (l.length / 2)).take (l.length / 2) = pairLevel f l := by
  have hm : 2 * (l.length / 2) = l.length := by omega
  rw [pairInPlace_eq f l (by omega), hm, List.take_length,
    List.take_append_of_le_length (by simp; omega), List.take_of_length_le (by simp; omega)]

end KwilDb.Lib
