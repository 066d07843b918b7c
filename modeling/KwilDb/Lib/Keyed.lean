import Mathlib

/-!
# Lists searched by a key

A slice of records searched with `slices.IndexFunc` on a key field, and a table with a key column,
are lists with a key function. When no key occurs twice (`(l.map key).Nodup`) such a list is a
finite map: `keyedValue` reads the value of the first element with a key, and the lemmas below say
what filtering, rewriting in place and appending do to it. A search by a unique key does not see
the order of the list, and a run of updates of distinct keys ends the same in every order
(`keyedValue_foldl`), which is what a loop over a Go map needs.

Nothing in this file names the node.
-/

namespace KwilDb.Lib

variable {α β κ : Type} [DecidableEq κ]

/-- The value of the first element with key `k`. -/
def keyedValue (key : α → κ) (val : α → β) (l : List α) (k : κ) : Option β :=
  (l.find? (key · = k)).map val

section Search

variable {key : α → κ} {val : α → β} {l : List α} {k : κ}

@[simp] lemma keyedValue_nil : keyedValue key val [] k = none := rfl

lemma keyedValue_cons (x : α) (l : List α) :
    keyedValue key val (x :: l) k = if key x = k then some (val x) else keyedValue key val l k := by
  by_cases h : key x = k <;> simp [keyedValue, h]

lemma keyedValue_eq_none : keyedValue key val l k = none ↔ ∀ x ∈ l, key x ≠ k := by
  simp [keyedValue, List.find?_eq_none]

/-- With unique keys, an element's own key finds it. -/
theorem find?_key_of_mem (hnd : (l.map key).Nodup) {x : α} (hx : x ∈ l) :
    l.find? (key · = key x) = some x := by
  induction l with
  | nil => cases hx
  | cons y l ih =>
    rw [List.map_cons, List.nodup_cons] at hnd
    rcases List.mem_cons.mp hx with rfl | hx
    · simp
    · -- `y` has another key than every element after it
      have hne : key y ≠ key x := fun h => hnd.1 (h ▸ List.mem_map_of_mem hx)
      rw [List.find?_cons, decide_eq_false hne]
      exact ih hnd.2 hx

theorem keyedValue_of_mem (hnd : (l.map key).Nodup) {x : α} (hx : x ∈ l) :
    keyedValue key val l (key x) = some (val x) := by
  rw [keyedValue, find?_key_of_mem hnd hx, Option.map_some]

theorem keyedValue_eq_some_iff (hnd : (l.map key).Nodup) {b : β} :
    keyedValue key val l k = some b ↔ ∃ x ∈ l, key x = k ∧ val x = b := by
  constructor
  · intro h
    obtain ⟨x, hx, rfl⟩ := Option.map_eq_some_iff.mp h
    exact ⟨x, List.mem_of_find?_eq_some hx, by simpa using List.find?_some hx, rfl⟩
  · rintro ⟨x, hx, rfl, rfl⟩
    exact keyedValue_of_mem hnd hx

/-- A search by a unique key does not see the order of the list. -/
theorem find?_key_perm {l' : List α} (h : l.Perm l') (hnd : (l.map key).Nodup) :
    l.find? (key · = k) = l'.find? (key · = k) := by
  cases hf : l.find? (key · = k) with
  | none =>
    refine (List.find?_eq_none.mpr fun x hx => ?_).symm
    exact List.find?_eq_none.mp hf x (h.mem_iff.mpr hx)
  | some x =>
    have hk : key x = k := by simpa using List.find?_some hf
    have hnd' : (l'.map key).Nodup := ((h.map key).nodup_iff).mp hnd
    rw [← hk, find?_key_of_mem hnd' (h.mem_iff.mp (List.mem_of_find?_eq_some hf))]

/-- Dropping elements of other keys changes no search. -/
theorem keyedValue_filter (q : α → Bool) (hq : ∀ x ∈ l, key x = k → q x) :
    keyedValue key val (l.filter q) k = keyedValue key val l k := by
  induction l with
  | nil => rfl
  | cons y l ih =>
    have ih := ih fun x hx => hq x (List.mem_cons_of_mem y hx)
    by_cases hy : key y = k
    · rw [List.filter_cons_of_pos (hq y List.mem_cons_self hy), keyedValue_cons, keyedValue_cons,
        if_pos hy, if_pos hy]
    · rw [keyedValue_cons, if_neg hy, ← ih]
      by_cases hqy : q y
      · rw [List.filter_cons_of_pos hqy, keyedValue_cons, if_neg hy]
      · rw [List.filter_cons_of_neg hqy]

/-- Dropping every element of a key leaves none to find. -/
theorem keyedValue_filter_none (q : α → Bool) (hq : ∀ x ∈ l, key x = k → q x = false) :
    keyedValue key val (l.filter q) k = none := by
  refine keyedValue_eq_none.mpr fun x hx hk => ?_
  rw [List.mem_filter] at hx
  simp [hq x hx.1 hk] at hx

/-- Rewriting elements in place, keys kept, is seen through the rewrite. -/
theorem keyedValue_map (f : α → α) (hf : ∀ x, key (f x) = key x) :
    keyedValue key val (l.map f) k = keyedValue key (val ∘ f) l k := by
  simp only [keyedValue, List.find?_map, Option.map_map]
  congr 2
  funext x
  simp [hf]

theorem keyedValue_append_singleton (x : α) :
    keyedValue key val (l ++ [x]) k =
      (keyedValue key val l k).or (if key x = k then some (val x) else none) := by
  by_cases hx : key x = k <;> simp [keyedValue, List.find?_append, hx]

theorem keyedValue_congr_val {val' : α → β} (h : ∀ x ∈ l, key x = k → val x = val' x) :
    keyedValue key val l k = keyedValue key val' l k := by
  cases hf : l.find? (key · = k) with
  | none => simp [keyedValue, hf]
  | some x =>
    simp only [keyedValue, hf, Option.map_some]
    exact congrArg some (h x (List.mem_of_find?_eq_some hf) (by simpa using List.find?_some hf))

end Search

/-! ### Replacing or appending -/

section Upsert

variable (key : α → κ)

/-- Replace the first element with `x`'s key by `x`, or append `x` when there is none:
`slices.IndexFunc`, then an assignment at the index or an `append`. -/
def upsertBy (x : α) (l : List α) : List α :=
  match l.findIdx? (key · = key x) with
  | some i => l.set i x
  | none => l ++ [x]

variable {key} {val : α → β}

lemma upsertBy_nil (x : α) : upsertBy key x [] = [x] := rfl

lemma upsertBy_cons (x y : α) (l : List α) :
    upsertBy key x (y :: l) = if key y = key x then x :: l else y :: upsertBy key x l := by
  unfold upsertBy
  rw [List.findIdx?_cons]
  by_cases hy : key y = key x
  · simp [hy]
  · simp only [hy, decide_false, Bool.false_eq_true, if_false]
    cases l.findIdx? (key · = key x) <;> rfl

theorem keyedValue_upsertBy (x : α) :
    ∀ (l : List α) (k : κ), (l.map key).Nodup →
      keyedValue key val (upsertBy key x l) k =
        if key x = k then some (val x) else keyedValue key val l k
  | [], k, _ => by rw [upsertBy_nil, keyedValue_cons, keyedValue_nil]
  | y :: l, k, hnd => by
    rw [List.map_cons, List.nodup_cons] at hnd
    rw [upsertBy_cons, keyedValue_cons (x := y)]
    by_cases hy : key y = key x
    · -- `x` takes the place of `y`, the only element of its key
      rw [if_pos hy, keyedValue_cons, hy]
      by_cases hxk : key x = k <;> simp only [hxk, if_true, if_false]
    · rw [if_neg hy, keyedValue_cons, keyedValue_upsertBy x l k hnd.2]
      by_cases hyk : key y = k
      · have hxk : ¬ key x = k := fun h => hy (hyk.trans h.symm)
        simp only [hyk, hxk, if_true, if_false]
      · simp only [hyk, if_false]

theorem mem_upsertBy {x z : α} {l : List α} (hz : z ∈ upsertBy key x l) : z = x ∨ z ∈ l := by
  unfold upsertBy at hz
  split at hz
  · exact (List.mem_or_eq_of_mem_set hz).symm
  · simpa [or_comm] using hz

theorem nodup_upsertBy (x : α) :
    ∀ l : List α, (l.map key).Nodup → ((upsertBy key x l).map key).Nodup
  | [], _ => by simp [upsertBy_nil]
  | y :: l, hnd => by
    rw [List.map_cons, List.nodup_cons] at hnd
    rw [upsertBy_cons]
    by_cases hy : key y = key x
    · rw [if_pos hy, List.map_cons, List.nodup_cons, ← hy]
      exact hnd
    · rw [if_neg hy, List.map_cons, List.nodup_cons]
      refine ⟨fun hmem => ?_, nodup_upsertBy x l hnd.2⟩
      -- the key of `y` is neither `x`'s nor one of the rest
      obtain ⟨z, hz, hzy⟩ := List.mem_map.mp hmem
      rcases mem_upsertBy hz with rfl | hz
      · exact hy hzy.symm
      · exact hnd.1 (hzy ▸ List.mem_map_of_mem hz)

end Upsert

section Updates

variable {γ : Type} (key : α → κ) (val : α → β) (ukey : γ → κ)

/-- **Updates of distinct keys, one after another.** If an update `g l x` gives key `ukey x` the
value `u x` and keeps every other key, on the lists where `P` holds and keeps holding, then a run
of updates with distinct keys gives each key the value of its own update, in any order. -/
theorem keyedValue_foldl (g : List α → γ → List α) (u : γ → Option β) (P : List α → Prop)
    (hg : ∀ l x k, P l → keyedValue key val (g l x) k =
      if ukey x = k then u x else keyedValue key val l k)
    (hP : ∀ l x, P l → P (g l x)) :
    ∀ (order : List γ) (l : List α), P l → (order.map ukey).Nodup → ∀ k,
      keyedValue key val (order.foldl g l) k =
        match order.find? (ukey · = k) with
        | some x => u x
        | none => keyedValue key val l k
  | [], _, _, _, _ => rfl
  | x :: order, l, hl, hnd, k => by
    rw [List.map_cons, List.nodup_cons] at hnd
    rw [List.foldl_cons, keyedValue_foldl g u P hg hP order (g l x) (hP l x hl) hnd.2 k,
      List.find?_cons]
    by_cases hx : ukey x = k
    · -- the later updates are of other keys
      have hnone : order.find? (ukey · = k) = none :=
        List.find?_eq_none.mpr fun y hy hyk =>
          hnd.1 (hx ▸ of_decide_eq_true hyk ▸ List.mem_map_of_mem hy)
      rw [hnone, decide_eq_true hx, hg l x k hl, if_pos hx]
    · rw [decide_eq_false hx]
      cases order.find? (ukey · = k) with
      | some y => rfl
      | none => rw [hg l x k hl, if_neg hx]

end Updates

end KwilDb.Lib
