import Mathlib

/-!
# `sort.Stable` over a `sort.Interface`

Go's `sort.Stable` sorts whatever has `Len`, `Less` and `Swap`: it never reads or writes the data
itself, it only compares two indices and swaps two indices. It insertion-sorts blocks of twenty,
then merges neighbouring blocks in place with `symMerge`, doubling the block size each round.
This file writes the algorithm as the standard library has it, over any state with a `Less` and a
`Swap`, so that a caller's `Swap` may do more than exchange two elements.

The loops of the library that shrink a range carry that range's width as fuel, which is always
enough; a loop that runs out of fuel stops where it is.

Whatever `Swap` keeps, `Stable` keeps (`stable_invariant`): the state changes by `Swap` alone.

Nothing in this file names the node.
-/

namespace KwilDb.Lib

/-- A `sort.Interface` over states `σ`: `Less(i, j)` and `Swap(i, j)` of a state. -/
structure SortInterface (σ : Type) where
  less : σ → ℕ → ℕ → Bool
  swap : σ → ℕ → ℕ → σ

namespace SortInterface

variable {σ : Type} (d : SortInterface σ)

/-- `swapRange(data, a, b, n)`: swap `a + i` with `b + i`, for `i` from `0` to `n - 1`. -/
def swapRange (a b n : ℕ) (s : σ) : σ :=
  (List.range n).foldl (fun s i => d.swap s (a + i) (b + i)) s

/-- The loop of `rotate(data, a, m, b)`, with `i = m - a` and `j = b - m` elements on either side
of `m`: swap the shorter side into place until both sides are as long, then swap them. -/
def rotateLoop (m : ℕ) : ℕ → ℕ → ℕ → σ → σ
  | 0, i, _, s => d.swapRange (m - i) m i s
  | fuel + 1, i, j, s =>
    if i = j then d.swapRange (m - i) m i s
    else if i > j then rotateLoop m fuel (i - j) j (d.swapRange (m - i) m j s)
    else rotateLoop m fuel i (j - i) (d.swapRange (m - i) (m + j - i) i s)

/-- `rotate(data, a, m, b)`: exchange the blocks `[a, m)` and `[m, b)`. -/
def rotate (a m b : ℕ) (s : σ) : σ :=
  d.rotateLoop m (b - a) (m - a) (b - m) s

/-- The binary search loops of `symMerge`: from `[i, j)`, keep the half after `h` when `p h`
holds and the half up to `h` otherwise; the result is where the range closes. -/
def search (p : ℕ → Bool) : ℕ → ℕ → ℕ → ℕ
  | 0, i, _ => i
  | fuel + 1, i, j =>
    if i < j then
      if p ((i + j) / 2) then search p fuel ((i + j) / 2 + 1) j else search p fuel i ((i + j) / 2)
    else i

/-- The inner loop of `insertionSort`, at `j = a + k`: swap the element down while it is less than
the one before it. -/
def insertDown (a : ℕ) : ℕ → σ → σ
  | 0, s => s
  | k + 1, s =>
    if d.less s (a + k + 1) (a + k) then insertDown a k (d.swap s (a + k + 1) (a + k)) else s

/-- `insertionSort(data, a, b)`. -/
def insertionSort (a b : ℕ) (s : σ) : σ :=
  (List.range' (a + 1) (b - (a + 1))).foldl (fun s i => d.insertDown a (i - a) s) s

/-- `symMerge(data, a, m, b)`: merge the sorted blocks `[a, m)` and `[m, b)` in place. A block of
one element is moved by a binary search and swaps; otherwise the blocks are cut where they cross,
the middle rotated, and both halves merged again. -/
def symMerge : ℕ → ℕ → ℕ → ℕ → σ → σ
  | 0, _, _, _, s => s
  | fuel + 1, a, m, b, s =>
    if m - a = 1 then
      -- the least `i` of `[m, b)` with `data[i] >= data[a]`; then `data[a]` moves to `i - 1`
      let i := search (fun h => d.less s h a) (b - m) m b
      (List.range' a (i - 1 - a)).foldl (fun s k => d.swap s k (k + 1)) s
    else if b - m = 1 then
      -- the least `i` of `[a, m)` with `data[i] > data[m]`; then `data[m]` moves to `i`
      let i := search (fun h => !d.less s m h) (m - a) a m
      (List.range' (i + 1) (m - i)).reverse.foldl (fun s k => d.swap s k (k - 1)) s
    else
      let mid := (a + b) / 2
      let n := mid + m
      let start₀ := if m > mid then n - b else a
      let r := if m > mid then mid else m
      let start := search (fun c => !d.less s (n - 1 - c) c) (r - start₀) start₀ r
      let e := n - start
      let s := if start < m ∧ m < e then d.rotate start m e s else s
      let s := if a < start ∧ start < mid then symMerge fuel a start mid s else s
      if mid < e ∧ e < b then symMerge fuel mid e b s else s

/-- The blocks of `blockSize` that `stable` insertion-sorts, the last one short. -/
def insertionSortBlocks (blockSize n : ℕ) (s : σ) : σ :=
  let s := (List.range (n / blockSize)).foldl
    (fun s k => d.insertionSort (k * blockSize) ((k + 1) * blockSize) s) s
  d.insertionSort (n / blockSize * blockSize) n s

/-- One round of `stable`'s merges: neighbouring blocks of `blockSize`, then the short tail. -/
def mergeRound (blockSize n : ℕ) (s : σ) : σ :=
  let s := (List.range (n / (2 * blockSize))).foldl
    (fun s k => d.symMerge (2 * blockSize) (k * (2 * blockSize)) (k * (2 * blockSize) + blockSize)
      ((k + 1) * (2 * blockSize)) s) s
  let a := n / (2 * blockSize) * (2 * blockSize)
  if a + blockSize < n then d.symMerge (n - a) a (a + blockSize) n s else s

/-- The rounds of merges, the block size doubling while it is below `n`. -/
def mergeRounds (n : ℕ) : ℕ → ℕ → σ → σ
  | 0, _, s => s
  | fuel + 1, blockSize, s =>
    if blockSize < n then mergeRounds n fuel (2 * blockSize) (d.mergeRound blockSize n s) else s

/-- **`sort.Stable(data)`**, for `data.Len() = n`: blocks of `20` insertion-sorted, then merged. -/
def stable (n : ℕ) (s : σ) : σ :=
  d.mergeRounds n n 20 (d.insertionSortBlocks 20 n s)

/-! ### What `Swap` keeps, `Stable` keeps -/

section Invariant

variable {d} {P : σ → Prop}

lemma foldl_invariant {α : Type} {f : σ → α → σ} (hf : ∀ s x, P s → P (f s x)) :
    ∀ (l : List α) (s : σ), P s → P (l.foldl f s)
  | [], _, hs => hs
  | x :: l, s, hs => foldl_invariant hf l (f s x) (hf s x hs)

/-- A step taken under a condition keeps what the step keeps. -/
lemma ite_invariant {c : Prop} [Decidable c] {x : σ} {f : σ → σ} (hx : P x)
    (hf : ∀ s, P s → P (f s)) : P (if c then f x else x) := by
  split_ifs
  · exact hf x hx
  · exact hx

variable (hswap : ∀ s i j, P s → P (d.swap s i j))
include hswap

lemma swapRange_invariant (a b n : ℕ) (s : σ) (hs : P s) : P (d.swapRange a b n s) :=
  foldl_invariant (fun s _ => hswap s _ _) _ s hs

lemma rotateLoop_invariant (m : ℕ) : ∀ fuel i j (s : σ), P s → P (d.rotateLoop m fuel i j s)
  | 0, _, _, s, hs => swapRange_invariant hswap _ _ _ s hs
  | fuel + 1, i, j, s, hs => by
    unfold rotateLoop
    split_ifs
    · exact swapRange_invariant hswap _ _ _ s hs
    · exact rotateLoop_invariant m fuel _ _ _ (swapRange_invariant hswap _ _ _ s hs)
    · exact rotateLoop_invariant m fuel _ _ _ (swapRange_invariant hswap _ _ _ s hs)

lemma rotate_invariant (a m b : ℕ) (s : σ) (hs : P s) : P (d.rotate a m b s) :=
  rotateLoop_invariant hswap m _ _ _ s hs

lemma insertDown_invariant (a : ℕ) : ∀ k (s : σ), P s → P (d.insertDown a k s)
  | 0, _, hs => hs
  | k + 1, s, hs => by
    unfold insertDown
    split_ifs
    · exact insertDown_invariant a k _ (hswap s _ _ hs)
    · exact hs

lemma insertionSort_invariant (a b : ℕ) (s : σ) (hs : P s) : P (d.insertionSort a b s) :=
  foldl_invariant (fun s _ => insertDown_invariant hswap a _ s) _ s hs

lemma symMerge_invariant : ∀ fuel a m b (s : σ), P s → P (d.symMerge fuel a m b s)
  | 0, _, _, _, _, hs => hs
  | fuel + 1, a, m, b, s, hs => by
    unfold symMerge
    split_ifs
    · exact foldl_invariant (fun s k => hswap s k (k + 1)) _ s hs
    · exact foldl_invariant (fun s k => hswap s k (k - 1)) _ s hs
    · -- the rotation, then the merge of each half
      exact ite_invariant (ite_invariant (ite_invariant hs (rotate_invariant hswap _ _ _))
        (symMerge_invariant fuel _ _ _)) (symMerge_invariant fuel _ _ _)

lemma mergeRound_invariant (blockSize n : ℕ) (s : σ) (hs : P s) :
    P (d.mergeRound blockSize n s) :=
  ite_invariant (foldl_invariant (fun s _ => symMerge_invariant hswap _ _ _ _ s) _ s hs)
    (symMerge_invariant hswap _ _ _ _)

lemma mergeRounds_invariant (n : ℕ) : ∀ fuel blockSize (s : σ), P s →
    P (d.mergeRounds n fuel blockSize s)
  | 0, _, _, hs => hs
  | fuel + 1, blockSize, s, hs => by
    unfold mergeRounds
    split_ifs
    · exact mergeRounds_invariant n fuel _ _ (mergeRound_invariant hswap _ _ s hs)
    · exact hs

/-- **`sort.Stable` changes the data by `Swap` alone**: whatever every `Swap` keeps, it keeps. -/
theorem stable_invariant (n : ℕ) (s : σ) (hs : P s) : P (d.stable n s) := by
  have hblocks : P (d.insertionSortBlocks 20 n s) :=
    insertionSort_invariant hswap _ _ _
      (foldl_invariant (fun s _ => insertionSort_invariant hswap _ _ s) _ s hs)
  exact mergeRounds_invariant hswap n n 20 _ hblocks

end Invariant

end SortInterface

end KwilDb.Lib
