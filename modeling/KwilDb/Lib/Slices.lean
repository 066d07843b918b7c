import Mathlib

/-!
# Deleting from slices

`slices.Delete(s, i, i+1)` is `List.eraseIdx`. A loop that deletes a set of positions from a
slice, one at a time, deletes them from the highest down, so that every position still names the
element it named before the loop: the result keeps the elements at the other positions
(`foldl_eraseIdx`). When the positions are those of the elements a test picks, the result is a
filter (`dropPositions_eq_filter`).

`slices.IndexFunc` is `List.findIdx?`, and deleting at the index it finds is `List.eraseP`. A
`range` loop that returns at the first element a test picks finds its first position; a loop
whose later turns overwrite earlier ones keeps the last position, and a loop of writes
`s[i] = x` leaves at each position the value of the last write to it (`getElem?_foldl_set`), so a
loop that writes every position with a target's values leaves the target (`foldl_set_of_cover`).

Last, the sum of a function of the values of a finite map, and how an insert of a new key and an
erase change it.

Nothing in this file names the node.
-/

namespace KwilDb.Lib

variable {α : Type}

/-- The elements of `l` whose positions, counted from `n`, `p` does not pick. -/
def dropPositions (p : ℕ → Bool) : ℕ → List α → List α
  | _, [] => []
  | n, a :: l => if p n then dropPositions p (n + 1) l else a :: dropPositions p (n + 1) l

/-- No position picked from `n` on keeps everything. -/
lemma dropPositions_of_ge {p : ℕ → Bool} :
    ∀ {n : ℕ} (l : List α), (∀ j, n ≤ j → p j = false) → dropPositions p n l = l
  | _, [], _ => rfl
  | n, a :: l, h => by
    rw [dropPositions, if_neg (by simp [h n le_rfl]),
      dropPositions_of_ge l fun j hj => h j (by omega)]

/-- **Deleting at the highest position first.** When every position `p` picks is below `n + i`,
deleting the element at `n + i` and then those `p` picks deletes the positions of both. -/
lemma dropPositions_eraseIdx {p : ℕ → Bool} :
    ∀ {n i : ℕ} (l : List α), (∀ j, p j = true → j < n + i) →
      dropPositions p n (l.eraseIdx i) = dropPositions (fun j => p j || j == n + i) n l
  | _, _, [], _ => rfl
  | n, 0, a :: l, h => by
    -- the deleted element is the first: nothing after it is picked on either side
    have hge : ∀ j, n ≤ j → p j = false := fun j hj => by
      by_contra hp
      have := h j (by simpa using hp)
      omega
    rw [List.eraseIdx_cons_zero, dropPositions_of_ge l hge, dropPositions, if_pos (by simp),
      dropPositions_of_ge l fun j hj => by simp [hge j (by omega)]; omega]
  | n, i + 1, a :: l, h => by
    have ih := dropPositions_eraseIdx (n := n + 1) (i := i) l fun j hj => by
      have := h j hj
      omega
    have hn : (n == n + (i + 1)) = false := by simp
    rw [List.eraseIdx_cons_succ, dropPositions, dropPositions, ih, Bool.or_comm (p n), hn,
      Bool.false_or, show n + 1 + i = n + (i + 1) by omega]

/-- **The deletion loop.** Deleting positions from the highest down keeps the elements at the
positions not deleted. -/
theorem foldl_eraseIdx : ∀ (is : List ℕ) (l : List α), is.Pairwise (· > ·) →
    (∀ i ∈ is, i < l.length) → is.foldl List.eraseIdx l = dropPositions (· ∈ is) 0 l
  | [], l, _, _ => (dropPositions_of_ge l fun j _ => by simp).symm
  | i :: is, l, hsorted, hlt => by
    have hbelow : ∀ j ∈ is, j < i := fun j hj => (List.pairwise_cons.mp hsorted).1 j hj
    have hlen : (l.eraseIdx i).length = l.length - 1 :=
      List.length_eraseIdx_of_lt (hlt i (by simp))
    rw [List.foldl_cons, foldl_eraseIdx is _ (List.pairwise_cons.mp hsorted).2
      fun j hj => by have := hbelow j hj; have := hlt i (by simp); omega,
      dropPositions_eraseIdx l fun j hj => by simpa using hbelow j (by simpa using hj)]
    congr 1
    funext j
    by_cases hj : j ∈ is <;> by_cases hji : j = i <;> simp [hj, hji]

/-- Positions picked exactly where the element fails a test: the deletion is a filter. -/
theorem dropPositions_eq_filter {p : ℕ → Bool} {q : α → Bool} :
    ∀ {n : ℕ} (l : List α), (∀ j (hj : j < l.length), p (n + j) = !q l[j]) →
      dropPositions p n l = l.filter q
  | _, [], _ => rfl
  | n, a :: l, h => by
    have ha := h 0 (by simp)
    have ih := dropPositions_eq_filter (n := n + 1) l fun j hj => by
      rw [show n + 1 + j = n + (j + 1) by omega]
      exact h (j + 1) (by simpa using hj)
    simp only [Nat.add_zero, List.getElem_cons_zero] at ha
    rw [dropPositions, ih, List.filter_cons, ha]
    cases q a <;> rfl

/-- Deleting at the index `slices.IndexFunc` finds deletes the first element the test picks. -/
lemma eraseIdx_of_findIdx_eq {p : α → Bool} {l : List α} {i : ℕ} (h : l.findIdx? p = some i) :
    l.eraseIdx i = l.eraseP p := by
  rw [List.eraseP_eq_eraseIdx, h]

/-- A `for i, x := range l` loop that returns at the first element `p` picks returns the element
at the first position picked. -/
theorem find?_zipIdx_of_first {p : α → Bool} {l : List α} {i : ℕ} {x : α} (hx : l[i]? = some x)
    (hp : p x) (hfirst : ∀ k < i, ∀ y, l[k]? = some y → p y = false) :
    (l.zipIdx.find? fun q => p q.1) = some (x, i) := by
  obtain ⟨hi, rfl⟩ := List.getElem?_eq_some_iff.mp hx
  rw [List.find?_eq_some_iff_getElem]
  refine ⟨hp, i, by simpa using hi, by simp [List.getElem_zipIdx], fun k hk => ?_⟩
  have hkl : k < l.length := by omega
  simp [List.getElem_zipIdx, hfirst k hk l[k] (List.getElem?_eq_getElem hkl)]

/-- A loop over `range l` whose later turns overwrite the earlier ones keeps the last position
`p` picks: searched from the end, the positions meet it first. -/
theorem find?_reverse_zipIdx_of_mem {p : α → Bool} {l : List α} {x : α} (hx : x ∈ l) (hp : p x) :
    ∃ j y, l[j]? = some y ∧ p y ∧ (∀ k, j < k → ∀ z, l[k]? = some z → p z = false) ∧
      (l.zipIdx.reverse.find? fun q => p q.1) = some (y, j) := by
  cases hf : l.zipIdx.reverse.find? fun q => p q.1 with
  | none =>
    obtain ⟨i, hi, rfl⟩ := List.getElem_of_mem hx
    have hmem : (l[i], i) ∈ l.zipIdx.reverse := by
      rw [List.mem_reverse, List.mem_iff_getElem]
      exact ⟨i, by simpa using hi, by simp [List.getElem_zipIdx]⟩
    exact absurd hp (List.find?_eq_none.mp hf _ hmem)
  | some q =>
    obtain ⟨hq, s, hs, hsq, hbefore⟩ := List.find?_eq_some_iff_getElem.mp hf
    have hn : s < l.length := by simpa using hs
    rw [List.getElem_reverse, List.getElem_zipIdx] at hsq
    subst hsq
    refine ⟨l.length - 1 - s, _, List.getElem?_eq_getElem (by omega), by simpa using hq,
      fun k hk z hz => ?_, by simp⟩
    -- a later position `k` is met earlier from the end, at `length - 1 - k`
    obtain ⟨hkl, rfl⟩ := List.getElem?_eq_some_iff.mp hz
    have := hbefore (l.length - 1 - k) (by omega)
    rw [List.getElem_reverse, List.getElem_zipIdx] at this
    simp only [List.length_zipIdx] at this
    have hk' : l.length - 1 - (l.length - 1 - k) = k := by omega
    simp only [hk', Bool.not_eq_true'] at this
    simpa using this

/-- A loop of writes `s[i] = x` over a list of positions and values: each position of the slice
holds the value of the last write to it, or what it held before. -/
theorem getElem?_foldl_set (l : List (ℕ × α)) (init : List α) (j : ℕ) :
    (l.foldl (fun acc p => acc.set p.1 p.2) init)[j]? =
      init[j]?.map fun x => ((l.reverse.find? (·.1 = j)).map Prod.snd).getD x := by
  induction l generalizing init with
  | nil => simp
  | cons p l ih =>
    rw [List.foldl_cons, ih, List.getElem?_set, List.reverse_cons, List.find?_append]
    by_cases hp : p.1 = j
    · -- the pair writes position `j`: a later write of it wins, else this one
      by_cases hj : j < init.length
      · cases hf : l.reverse.find? (·.1 = j) <;> simp [hp, hj]
      · simp [hp, hj]
    · simp [hp]

/-- A loop of writes that writes each position of a slice at least once, each time with the value
a target slice of the same length has there, leaves the target. -/
theorem foldl_set_of_cover {l : List (ℕ × α)} {init target : List α}
    (hlen : init.length = target.length) (hval : ∀ p ∈ l, target[p.1]? = some p.2)
    (hcov : ∀ j < target.length, ∃ p ∈ l, p.1 = j) :
    l.foldl (fun acc p => acc.set p.1 p.2) init = target := by
  apply List.ext_getElem?
  intro j
  rw [getElem?_foldl_set]
  by_cases hj : j < target.length
  · -- the last write of position `j` is of the target's value there
    obtain ⟨p, hp, rfl⟩ := hcov j hj
    obtain ⟨q, hq⟩ : ∃ q, l.reverse.find? (·.1 = p.1) = some q :=
      Option.isSome_iff_exists.mp (List.find?_isSome.mpr ⟨p, List.mem_reverse.mpr hp, by simp⟩)
    have hq1 : q.1 = p.1 := by simpa using List.find?_some hq
    have hql : q ∈ l := List.mem_reverse.mp (List.mem_of_find?_eq_some hq)
    rw [hq, ← hq1, hval q hql, List.getElem?_eq_getElem (by omega)]
    rfl
  · rw [List.getElem?_eq_none (by omega), List.getElem?_eq_none (by omega)]
    rfl

section Keys

variable {β : Type} (f : α → β)

/-- Where no two elements share a key, deleting the first with key `b` deletes all of them. -/
lemma eraseP_eq_filter_of_nodup [DecidableEq β] (b : β) :
    ∀ {l : List α}, (l.map f).Nodup → l.eraseP (fun a => f a = b) = l.filter (fun a => f a ≠ b)
  | [], _ => rfl
  | a :: l, hnd => by
    obtain ⟨ha, hnd⟩ := List.nodup_cons.mp hnd
    by_cases hab : f a = b
    · -- no later element has the key `b`, so the filter keeps all of them
      have hkeep : l.filter (fun a => f a ≠ b) = l := List.filter_eq_self.mpr fun x hx => by
        have : f x ≠ f a := fun h => ha (List.mem_map.mpr ⟨x, hx, h⟩)
        simpa [← hab] using this
      rw [List.eraseP_cons_of_pos (by simpa using hab), List.filter_cons_of_neg (by simpa using hab),
        hkeep]
    · rw [List.eraseP_cons_of_neg (by simpa using hab), List.filter_cons_of_pos (by simpa using hab),
        eraseP_eq_filter_of_nodup b hnd]

/-- Where no two elements share a key, dropping the keys of a prefix leaves the rest. The test
is any that picks the elements whose keys are not the prefix's. -/
lemma filter_append_of_nodup {l₁ l₂ : List α} (hnd : ((l₁ ++ l₂).map f).Nodup) {p : α → Bool}
    (hp : ∀ a, p a = true ↔ f a ∉ l₁.map f) : (l₁ ++ l₂).filter p = l₂ := by
  rw [List.map_append] at hnd
  have hdisj := List.disjoint_of_nodup_append hnd
  rw [List.filter_append, List.filter_eq_nil_iff.mpr fun a ha => by
      rw [hp, not_not]
      exact List.mem_map_of_mem ha,
    List.nil_append, List.filter_eq_self.mpr fun a ha => by
      rw [hp]
      exact fun h => hdisj h (List.mem_map_of_mem ha)]

end Keys

/-! ### Finite maps -/

section MapSum

variable {K V : Type} [DecidableEq K] (f : V → ℤ)

/-- `delete(m, k)` for a key not in the map leaves it as it is. -/
lemma erase_of_lookup_none {m : AList (fun _ : K => V)} {k : K} (h : m.lookup k = none) :
    m.erase k = m :=
  AList.ext (List.kerase_of_notMem_keys (AList.lookup_eq_none.mp h))

/-- The sum of `f` over the values of a finite map. -/
def mapSum (m : AList (fun _ : K => V)) : ℤ := (m.entries.map fun e => f e.2).sum

/-- A new key adds its value. -/
theorem mapSum_insert_of_not_mem {m : AList (fun _ : K => V)} {k : K} (h : k ∉ m) (v : V) :
    mapSum f (m.insert k v) = mapSum f m + f v := by
  unfold mapSum
  rw [AList.entries_insert_of_notMem h, List.map_cons, List.sum_cons]
  ring

/-- Erasing a key takes its value out. -/
theorem mapSum_erase {m : AList (fun _ : K => V)} {k : K} {v : V} (h : m.lookup k = some v) :
    mapSum f (m.erase k) = mapSum f m - f v := by
  unfold mapSum
  have hk : k ∈ m.entries.keys := AList.mem_keys.mp (AList.lookup_isSome.mp (by simp [h]))
  obtain ⟨b, l₁, l₂, hl₁, hl, herase⟩ := List.exists_of_kerase hk
  have hb : b = v := by
    have hlook : m.lookup k = some b := by
      show List.dlookup k m.entries = some b
      rw [hl, List.dlookup_append, List.dlookup_eq_none.mpr hl₁, Option.none_or,
        List.dlookup_cons_eq]
    rw [hlook] at h
    exact Option.some.inj h
  show ((m.entries.kerase k).map fun e => f e.2).sum = _
  rw [herase, hl, hb]
  simp only [List.map_append, List.map_cons, List.sum_append, List.sum_cons]
  ring

end MapSum

end KwilDb.Lib
