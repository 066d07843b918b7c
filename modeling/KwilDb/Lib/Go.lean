import Mathlib

/-!
# What Go code is made of: byte orders, maps and error returns

* The byte orders of `encoding/binary`. `AppendUint16`, `AppendUint32` and `AppendUint64` of
  `binary.LittleEndian` and `binary.BigEndian`, and `binary.Write` of a fixed-width integer, all
  write the `w` low bytes of a number, least or most significant first; `beNat` reads them back.
  A `uint64` converted to `int64` and back is itself.
* A Go map is a finite map with one value per key, an `AList` here. So is a key-value database,
  whose iterator under a prefix visits the keys that start with it in order (`GoMap.prefixed`).
* A function returning `(T, error)` is an `Except String T`; `fmt.Errorf("...: %w", err)` is
  `mapError` with a prefix. The two lemmas on `Except` take a chain of such calls apart. A
  function that can also panic is an `Except Failure T`.
* A method that changes its receiver or a database and returns an `error` keeps what it changed
  before it failed: it is an `EStateM`, whose failed runs still carry the state they reached.
  `attempt` is the caller's `err := f(); if errors.Is(err, ...)`.

Nothing in this file names the node.
-/

namespace KwilDb.Lib

/-- The `w` low bytes of `n`, least significant first (`binary.LittleEndian`). -/
def leBytes : ℕ → ℕ → List UInt8
  | 0, _ => []
  | w + 1, n => UInt8.ofNat (n % 256) :: leBytes w (n / 256)

/-- The `w` low bytes of `n`, most significant first (`binary.BigEndian`). -/
def beBytes (w n : ℕ) : List UInt8 := (leBytes w n).reverse

@[simp] lemma length_leBytes (w n : ℕ) : (leBytes w n).length = w := by
  induction w generalizing n with
  | zero => rfl
  | succ w ih => simp [leBytes, ih]

@[simp] lemma length_beBytes (w n : ℕ) : (beBytes w n).length = w := by simp [beBytes]

@[simp] lemma leBytes_zero (w : ℕ) : leBytes w 0 = List.replicate w 0 := by
  induction w with
  | zero => rfl
  | succ w ih => simp [leBytes, ih, List.replicate_succ]

@[simp] lemma beBytes_zero (w : ℕ) : beBytes w 0 = List.replicate w 0 := by simp [beBytes]

/-- The number whose bytes, most significant first, are `bs`: `binary.BigEndian.Uint64` of eight
bytes, and `big.Int.SetBytes`. -/
def beNat (bs : List UInt8) : ℕ := bs.foldl (fun acc b => acc * 256 + b.toNat) 0

/-- A Go `map[K]V`: at most one value for each key. Iteration order is the order of `entries`,
which is as arbitrary as Go's. -/
abbrev GoMap (K V : Type) := AList (fun _ : K => V)

/-- `uint64(int64(u))`: a `uint64` converted to `int64` and back, through the integers, is itself. -/
theorem UInt64.ofInt_toInt64_toInt (u : UInt64) : UInt64.ofInt u.toInt64.toInt = u := by
  have hlt : u.toNat < 2 ^ 64 := u.toNat_lt
  have h : u.toInt64.toInt % 2 ^ 64 = (u.toNat : ℤ) := by
    rw [Int64.toInt, UInt64.toBitVec_toInt64, BitVec.toInt_eq_toNat_cond]
    have : u.toBitVec.toNat = u.toNat := rfl
    split <;> omega
  simp only [UInt64.ofInt, h, Int.toNat_natCast, UInt64.ofNat_toNat]

section GoMap

variable {K V : Type} [DecidableEq K]

/- `m[k] = v` for a key already in the map is `AList.replace`; Mathlib has the lemmas of `insert`
but not these two. -/

lemma kreplace_cons_self (k : K) (v v' : V) (l : List ((_ : K) × V)) :
    List.kreplace k v (⟨k, v'⟩ :: l) = ⟨k, v⟩ :: l := by
  simp [List.kreplace, List.lookmap_cons_some]

lemma kreplace_cons_ne {k k' : K} (v v' : V) (l : List ((_ : K) × V)) (h : k' ≠ k) :
    List.kreplace k v (⟨k', v'⟩ :: l) = ⟨k', v'⟩ :: List.kreplace k v l := by
  simp [List.kreplace, List.lookmap_cons_none, Ne.symm h]

theorem GoMap.lookup_replace_self {k : K} {v : V} {m : GoMap K V} (h : k ∈ m) :
    (m.replace k v).lookup k = some v := by
  obtain ⟨l, nd⟩ := m
  simp only [AList.replace, AList.lookup, AList.mem_keys, AList.keys] at h ⊢
  induction l with
  | nil => simp at h
  | cons e l ih =>
    obtain ⟨k', v'⟩ := e
    by_cases hk : k' = k
    · subst hk
      rw [kreplace_cons_self]
      simp
    · rw [kreplace_cons_ne _ _ _ hk, List.dlookup_cons_ne _ _ (Ne.symm hk)]
      exact ih (List.nodupKeys_cons.mp nd).2 (by simpa [List.keys, Ne.symm hk] using h)

theorem GoMap.lookup_replace_ne {k k' : K} {v : V} (m : GoMap K V) (h : k' ≠ k) :
    (m.replace k v).lookup k' = m.lookup k' := by
  obtain ⟨l, nd⟩ := m
  simp only [AList.replace, AList.lookup]
  induction l with
  | nil => rfl
  | cons e l ih =>
    obtain ⟨k'', v'⟩ := e
    by_cases hk : k'' = k
    · subst hk
      rw [kreplace_cons_self, List.dlookup_cons_ne _ _ h, List.dlookup_cons_ne _ _ h]
    · rw [kreplace_cons_ne _ _ _ hk]
      by_cases hk' : k' = k''
      · subst hk'
        simp only [List.dlookup_cons_eq]
      · rw [List.dlookup_cons_ne _ _ hk', List.dlookup_cons_ne _ _ hk',
          ih (List.nodupKeys_cons.mp nd).2]

theorem GoMap.replace_replace (k : K) (v v' : V) (m : GoMap K V) :
    (m.replace k v).replace k v' = m.replace k v' := by
  obtain ⟨l, nd⟩ := m
  simp only [AList.replace, AList.mk.injEq]
  induction l with
  | nil => rfl
  | cons e l ih =>
    obtain ⟨k', c⟩ := e
    by_cases hk : k' = k
    · subst hk
      simp only [kreplace_cons_self]
    · simp only [kreplace_cons_ne _ _ _ hk, ih (List.nodupKeys_cons.mp nd).2]

/-- Assignments `m[k] = v` in a loop: a key looks up to its last assignment, or else to what the
map held before the loop. -/
theorem GoMap.lookup_foldl_insert (k : K) :
    ∀ (l : List ((_ : K) × V)) (m : GoMap K V),
      (l.foldl (fun m e => m.insert e.1 e.2) m).lookup k = (l.reverse.dlookup k).or (m.lookup k)
  | [], m => by simp
  | ⟨k', v⟩ :: l, m => by
    rw [List.foldl_cons, GoMap.lookup_foldl_insert k l, List.reverse_cons, List.dlookup_append,
      Option.or_assoc]
    congr 1
    by_cases hk : k = k'
    · subst hk
      simp
    · rw [AList.lookup_insert_ne hk, List.dlookup_cons_ne _ _ hk]
      rfl

/-- A loop of assignments `m[key a] = val a`: a key is set after it when an element names it or
the map held it. -/
theorem GoMap.isSome_lookup_foldl_insert {α : Type} (key : α → K) (val : α → V) (k : K) :
    ∀ (l : List α) (m : GoMap K V),
      ((l.foldl (fun m a => m.insert (key a) (val a)) m).lookup k).isSome ↔
        k ∈ l.map key ∨ (m.lookup k).isSome
  | [], m => by simp
  | a :: l, m => by
    rw [List.foldl_cons, GoMap.isSome_lookup_foldl_insert key val k l, List.map_cons,
      List.mem_cons]
    by_cases hk : k = key a
    · subst hk
      simp
    · simp [AList.lookup_insert_ne hk, hk]

/-- A loop of assignments `m[key a] = val a`: a key looks up to the value of the last element
that names it, or else to what the map held before the loop. -/
theorem GoMap.lookup_foldl_insert_find {α : Type} (key : α → K) (val : α → V) (k : K) :
    ∀ (l : List α) (m : GoMap K V),
      (l.foldl (fun m a => m.insert (key a) (val a)) m).lookup k =
        ((l.reverse.find? fun a => key a = k).map val).or (m.lookup k)
  | [], m => by simp
  | a :: l, m => by
    rw [List.foldl_cons, GoMap.lookup_foldl_insert_find key val k l, List.reverse_cons,
      List.find?_append, Option.map_or, Option.or_assoc]
    congr 1
    by_cases hk : key a = k
    · subst hk
      simp
    · simp [hk, AList.lookup_insert_ne (Ne.symm hk)]

/-- Of distinct keys, each is set to its element's value. -/
theorem GoMap.lookup_foldl_insert_of_mem {α : Type} (key : α → K) (val : α → V) {l : List α}
    (hnd : (l.map key).Nodup) {a : α} (ha : a ∈ l) (m : GoMap K V) :
    (l.foldl (fun m a => m.insert (key a) (val a)) m).lookup (key a) = some (val a) := by
  obtain ⟨b, hb⟩ : ∃ b, (l.reverse.find? fun x => key x = key a) = some b :=
    Option.isSome_iff_exists.mp (List.find?_isSome.mpr ⟨a, List.mem_reverse.mpr ha, by simp⟩)
  have hbl : b ∈ l := List.mem_reverse.mp (List.mem_of_find?_eq_some hb)
  obtain rfl : b = a := List.inj_on_of_nodup_map hnd hbl ha (by simpa using List.find?_some hb)
  rw [GoMap.lookup_foldl_insert_find, hb]
  rfl

/-- Such a loop leaves the keys no element names as they were. -/
theorem GoMap.lookup_foldl_insert_of_not_mem {α : Type} (key : α → K) (val : α → V) {k : K} :
    ∀ {l : List α} (m : GoMap K V), k ∉ l.map key →
      (l.foldl (fun m a => m.insert (key a) (val a)) m).lookup k = m.lookup k
  | [], _, _ => rfl
  | a :: l, m, hk => by
    rw [List.map_cons, List.mem_cons, not_or] at hk
    rw [List.foldl_cons, GoMap.lookup_foldl_insert_of_not_mem key val _ hk.2,
      AList.lookup_insert_ne hk.1]

end GoMap

section Prefixed

variable {α V : Type} [DecidableEq α] [LT α] [DecidableLT α]

/-- A key-value database read with an iterator under a key prefix: the entries whose key starts
with the prefix, in the order of the keys. -/
def GoMap.prefixed (m : GoMap (List α) V) (pre : List α) : List ((_ : List α) × V) :=
  (m.entries.filter fun e => pre.isPrefixOf e.1).mergeSort fun a b => decide (a.1 ≤ b.1)

theorem GoMap.mem_prefixed {m : GoMap (List α) V} {pre : List α} {e : (_ : List α) × V} :
    e ∈ m.prefixed pre ↔ e ∈ m.entries ∧ pre <+: e.1 := by
  simp [GoMap.prefixed, List.mem_mergeSort, List.isPrefixOf_iff_prefix]

end Prefixed

/-! ### Error returns -/

/-- How a Go call can fail: with an `error` return, or with a panic, which unwinds the goroutine
and, unrecovered, stops the process. -/
inductive Failure where
  | error (msg : String)
  | panic (msg : String)
deriving DecidableEq, Repr

/-- The call panicked. -/
def Failure.IsPanic : Failure → Prop
  | .error _ => False
  | .panic _ => True

@[simp] lemma Failure.not_isPanic_error (msg : String) : ¬ (Failure.error msg).IsPanic := id

@[simp] lemma Failure.isPanic_panic (msg : String) : (Failure.panic msg).IsPanic := trivial

/-- `fmt.Errorf(pfx + ": %w", err)` on what a call returned: an error is wrapped, a panic goes on
unwinding as it is. -/
def Failure.wrap (pfx : String) : Failure → Failure
  | .error msg => .error (pfx ++ ": " ++ msg)
  | .panic msg => .panic msg

/-- The panic of a method call through a nil pointer. -/
def nilDereference : Failure :=
  .panic "runtime error: invalid memory address or nil pointer dereference"

/-- A call of `Except Failure` type returns normally: with a value or an `error`, not a panic. -/
def ReturnsNormally {α : Type} (x : Except Failure α) : Prop :=
  ∀ f, x = .error f → ¬ f.IsPanic

section Except

variable {ε ε' α β : Type}

@[simp] lemma returnsNormally_ok (a : α) : ReturnsNormally (.ok a : Except Failure α) := by
  rintro f ⟨⟩

@[simp] lemma returnsNormally_error_iff (f : Failure) :
    ReturnsNormally (.error f : Except Failure α) ↔ ¬ f.IsPanic :=
  ⟨fun h => h f rfl, by rintro h f' ⟨⟩; exact h⟩

@[simp] lemma returnsNormally_pure (a : α) : ReturnsNormally (pure a : Except Failure α) :=
  returnsNormally_ok a

/-- A chain of calls returns normally when the first does, and so does the rest after each of
its values. -/
theorem returnsNormally_bind_iff {x : Except Failure α} {f : α → Except Failure β} :
    ReturnsNormally (x >>= f) ↔
      ReturnsNormally x ∧ ∀ a, x = .ok a → ReturnsNormally (f a) := by
  cases x with
  | error e => simp [bind, Except.bind]
  | ok a => simp [bind, Except.bind]

@[simp] theorem returnsNormally_map_iff {x : Except Failure α} {g : α → β} :
    ReturnsNormally (g <$> x) ↔ ReturnsNormally x := by
  cases x with
  | error e => simp [Functor.map, Except.map]
  | ok a => simp [Functor.map, Except.map]

@[simp] theorem exceptThrow_eq (e : ε) : (throw e : Except ε α) = .error e := rfl

/-- A chain of calls succeeds when each call does. -/
@[simp] theorem bind_eq_ok {x : Except ε α} {f : α → Except ε β} {b : β} :
    (x >>= f) = .ok b ↔ ∃ a, x = .ok a ∧ f a = .ok b := by
  cases x with
  | error e => simp [bind, Except.bind]
  | ok a => simp [bind, Except.bind]

@[simp] theorem exceptBind_eq_ok {x : Except ε α} {f : α → Except ε β} {b : β} :
    x.bind f = .ok b ↔ ∃ a, x = .ok a ∧ f a = .ok b := bind_eq_ok

@[simp] theorem exceptMap_eq_ok {x : Except ε α} {g : α → β} {b : β} :
    x.map g = .ok b ↔ ∃ a, x = .ok a ∧ g a = b := by
  cases x <;> simp [Except.map]

/-- Wrapping the error leaves success alone. -/
@[simp] theorem mapError_eq_ok {x : Except ε α} {g : ε → ε'} {a : α} :
    x.mapError g = .ok a ↔ x = .ok a := by
  cases x <;> simp [Except.mapError]

/-- **A checked loop.** A `for` loop whose body first runs a fallible check on the element and
then updates the accumulator succeeds exactly when every check does, and computes the plain
fold. -/
theorem foldlM_check_eq_ok {check : α → Except ε Unit} {g : β → α → β} :
    ∀ (l : List α) (b r : β),
      l.foldlM (fun acc a => do check a; pure (g acc a)) b = .ok r ↔
        (∀ a ∈ l, check a = .ok ()) ∧ r = l.foldl g b
  | [], b, r => by
    simp only [List.foldlM_nil, List.not_mem_nil, false_imp_iff, implies_true, true_and,
      List.foldl_nil]
    exact ⟨fun h => (Except.ok.inj h).symm, fun h => h ▸ rfl⟩
  | a :: l, b, r => by
    rw [List.foldlM_cons, bind_eq_ok, List.forall_mem_cons, List.foldl_cons]
    constructor
    · rintro ⟨b', hb', hl⟩
      rw [bind_eq_ok] at hb'
      obtain ⟨⟨⟩, hc, hg⟩ := hb'
      cases hg
      obtain ⟨hl, hr⟩ := (foldlM_check_eq_ok l _ r).mp hl
      exact ⟨⟨hc, hl⟩, hr⟩
    · rintro ⟨⟨hc, hl⟩, rfl⟩
      exact ⟨g b a, by rw [bind_eq_ok]; exact ⟨(), hc, rfl⟩,
        (foldlM_check_eq_ok l _ _).mpr ⟨hl, rfl⟩⟩

/-- A loop over a list returns normally when each of its calls does. -/
theorem returnsNormally_mapM {f : α → Except Failure β} :
    ∀ l : List α, (∀ a ∈ l, ReturnsNormally (f a)) → ReturnsNormally (l.mapM f)
  | [], _ => by simp
  | a :: l, h => by
    rw [List.forall_mem_cons] at h
    rw [List.mapM_cons, returnsNormally_bind_iff]
    refine ⟨h.1, fun b _ => ?_⟩
    rw [returnsNormally_bind_iff]
    exact ⟨returnsNormally_mapM l h.2, fun _ _ => returnsNormally_pure _⟩

/-- A list whose every element is the image of something with `P` is the image of a list of
such things: the shape the loops below ask their input to have. -/
theorem exists_eq_map_of_forall_mem {γ : Type} {h : γ → α} {P : γ → Prop} :
    ∀ l : List α, (∀ a ∈ l, ∃ c, a = h c ∧ P c) → ∃ cs : List γ, l = cs.map h ∧ ∀ c ∈ cs, P c
  | [], _ => ⟨[], rfl, by simp⟩
  | a :: l, hl => by
    rw [List.forall_mem_cons] at hl
    obtain ⟨c, rfl, hc⟩ := hl.1
    obtain ⟨cs, rfl, hcs⟩ := exists_eq_map_of_forall_mem l hl.2
    exact ⟨c :: cs, rfl, List.forall_mem_cons.mpr ⟨hc, hcs⟩⟩

/-- A loop whose every call succeeds computes the plain map. -/
theorem mapM_map_eq_ok {γ : Type} {f : α → Except ε β} {h : γ → α} {g : γ → β} :
    ∀ l : List γ, (∀ c ∈ l, f (h c) = .ok (g c)) → (l.map h).mapM f = .ok (l.map g)
  | [], _ => rfl
  | c :: l, hl => by
    rw [List.forall_mem_cons] at hl
    rw [List.map_cons, List.mapM_cons, hl.1, mapM_map_eq_ok l hl.2]
    rfl

/-- Each result of a successful loop is what the call returned on one of the elements. -/
theorem mem_of_mapM_eq_ok {f : α → Except ε β} :
    ∀ {l : List α} {bs : List β}, l.mapM f = .ok bs → ∀ b ∈ bs, ∃ a ∈ l, f a = .ok b
  | [], [], _, _, hb => by cases hb
  | [], _ :: _, h, _, _ => by cases h
  | a :: l, bs, h, b, hb => by
    rw [List.mapM_cons, bind_eq_ok] at h
    obtain ⟨b', hb', h⟩ := h
    rw [bind_eq_ok] at h
    obtain ⟨bs', hbs', hbs⟩ := h
    cases hbs
    rcases List.mem_cons.mp hb with rfl | hb
    · exact ⟨a, List.mem_cons_self, hb'⟩
    · obtain ⟨a', ha', hfa⟩ := mem_of_mapM_eq_ok hbs' b hb
      exact ⟨a', List.mem_cons_of_mem a ha', hfa⟩

/-- A loop succeeds when each of its calls does, and what each call returns keeps what was known
of it. -/
theorem mapM_forall₂ {f : α → Except ε β} {R : α → β → Prop} :
    ∀ l : List α, (∀ a ∈ l, ∃ b, f a = .ok b ∧ R a b) →
      ∃ bs, l.mapM f = .ok bs ∧ List.Forall₂ R l bs
  | [], _ => ⟨[], rfl, .nil⟩
  | a :: l, h => by
    rw [List.forall_mem_cons] at h
    obtain ⟨b, hb, hab⟩ := h.1
    obtain ⟨bs, hbs, hl⟩ := mapM_forall₂ l h.2
    exact ⟨b :: bs, by rw [List.mapM_cons, hb, hbs]; rfl, .cons hab hl⟩

/-- A successful loop of calls each of which keeps some view `k` of its argument as the view `h`
of its result keeps the view of the whole list. -/
theorem map_of_mapM_eq_ok {γ : Type} {f : α → Except ε β} {h : β → γ} {k : α → γ}
    (hf : ∀ a b, f a = .ok b → h b = k a) :
    ∀ (l : List α) (bs : List β), l.mapM f = .ok bs → bs.map h = l.map k
  | [], bs, hl => by
    cases hl
    rfl
  | a :: l, bs, hl => by
    rw [List.mapM_cons, bind_eq_ok] at hl
    obtain ⟨b, hb, hl⟩ := hl
    rw [bind_eq_ok] at hl
    obtain ⟨bs', hbs', hbs⟩ := hl
    cases hbs
    rw [List.map_cons, List.map_cons, hf a b hb, map_of_mapM_eq_ok hf l bs' hbs']

/-- **An invariant of a fallible loop.** What each successful turn keeps, with the elements
visited so far, a successful loop keeps. -/
theorem foldlM_invariant {f : β → α → Except ε β} (P : List α → β → Prop)
    (hf : ∀ seen b a b', P seen b → f b a = .ok b' → P (seen ++ [a]) b') :
    ∀ (l seen : List α) (b r : β), P seen b → l.foldlM f b = .ok r → P (seen ++ l) r
  | [], seen, b, r, hb, hl => by
    cases hl
    simpa using hb
  | a :: l, seen, b, r, hb, hl => by
    rw [List.foldlM_cons, bind_eq_ok] at hl
    obtain ⟨b', hb', hl⟩ := hl
    have := foldlM_invariant P hf l (seen ++ [a]) b' r (hf seen b a b' hb hb') hl
    simpa using this

/-- **Two fallible loops in step.** A relation between the states of two loops over one list,
which may speak of the elements still to come, holds after both and both succeed, when each pair of
turns succeeds and keeps it. -/
theorem foldlM_lockstep {γ : Type} {f : β → α → Except ε β} {g : γ → α → Except ε' γ}
    (R : List α → β → γ → Prop)
    (hstep : ∀ a l b c, R (a :: l) b c → ∃ b' c', f b a = .ok b' ∧ g c a = .ok c' ∧ R l b' c') :
    ∀ (l : List α) (b : β) (c : γ), R l b c →
      ∃ b' c', l.foldlM f b = .ok b' ∧ l.foldlM g c = .ok c' ∧ R [] b' c'
  | [], b, c, h => ⟨b, c, rfl, rfl, h⟩
  | a :: l, b, c, h => by
    obtain ⟨b₁, c₁, hf, hg, h₁⟩ := hstep a l b c h
    obtain ⟨b', c', hb, hc, h'⟩ := foldlM_lockstep R hstep l b₁ c₁ h₁
    refine ⟨b', c', ?_, ?_, h'⟩
    · rw [List.foldlM_cons, hf]
      exact hb
    · rw [List.foldlM_cons, hg]
      exact hc

end Except

/-! ### Calls with side effects -/

section Calls

variable {ε σ α : Type}

/-- The error of a call as a value the caller branches on; the state the call reached stays,
whether it failed or not. -/
def attempt (x : EStateM ε σ α) : EStateM ε σ (Except ε α) := fun s =>
  match x s with
  | .ok a s' => .ok (.ok a) s'
  | .error e s' => .ok (.error e) s'

/-- What a run ends with, without the state. -/
def outcome : EStateM.Result ε σ α → Except ε α
  | .ok a _ => .ok a
  | .error e _ => .error e

/-- The state a run ends in, whether it returned or failed. -/
def finalState : EStateM.Result ε σ α → σ
  | .ok _ s => s
  | .error _ s => s

/-! The monad's operations, applied to a state: a call's body then runs by `simp` with the
calls it makes, and never with the instances that build `>>=`, `get` and `throw`. -/

namespace EStateM

@[simp] lemma bind_apply {β : Type} (x : EStateM ε σ α) (f : α → EStateM ε σ β) (s : σ) :
    (x >>= f) s = match x s with
      | .ok a s' => f a s'
      | .error e s' => .error e s' := rfl

@[simp] lemma map_apply {β : Type} (f : α → β) (x : EStateM ε σ α) (s : σ) :
    (f <$> x) s = match x s with
      | .ok a s' => .ok (f a) s'
      | .error e s' => .error e s' := rfl

@[simp] lemma seqRight_apply {β : Type} (x : EStateM ε σ α) (y : EStateM ε σ β) (s : σ) :
    (x *> y) s = match x s with
      | .ok _ s' => y s'
      | .error e s' => .error e s' := rfl

@[simp] lemma pure_apply (a : α) (s : σ) : (pure a : EStateM ε σ α) s = .ok a s := rfl

@[simp] lemma get_apply (s : σ) : (get : EStateM ε σ σ) s = .ok s s := rfl

@[simp] lemma set_apply (s s' : σ) : (set s' : EStateM ε σ PUnit) s = .ok ⟨⟩ s' := rfl

@[simp] lemma modify_apply (f : σ → σ) (s : σ) :
    (modify f : EStateM ε σ PUnit) s = .ok ⟨⟩ (f s) := rfl

@[simp] lemma throw_apply (e : ε) (s : σ) : (throw e : EStateM ε σ α) s = .error e s := rfl

end EStateM

end Calls

end KwilDb.Lib
