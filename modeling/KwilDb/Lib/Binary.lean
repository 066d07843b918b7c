import KwilDb.Lib.Go

/-!
# Reading bytes as `io` and `encoding/binary` do

A reader over a byte slice (`bytes.Reader`, and the readers that wrap one) is a state monad over
the bytes not read yet, whose reads fail with the text of Go's error. On it: `ReadByte`,
`io.ReadFull`, `binary.Read` of a little-endian unsigned integer, and the varints of
`encoding/binary`.

A varint holds seven bits a byte, least significant first, with the high bit set on every byte
but the last (`AppendUvarint`); a signed one is the unsigned varint of its zig-zag code
(`AppendVarint`). `ReadUvarint` reads at most ten bytes and refuses a tenth byte above one, so
it reads back every value below `2^64` (`readUvarint_appendUvarint`). It does not ask for the
shortest form: a zero byte after a continuation byte reads the same value as the shorter form
(`readUvarint_overlong`).

Nothing in this file names the node.
-/

namespace KwilDb.Lib

/-- A reader over the bytes not read yet. A read returns a value with the bytes after it, or the
text of its error. -/
abbrev Reader := StateT (List UInt8) (Except String)

namespace Reader

variable {α β : Type}

/-- `io.EOF`. -/
def eof : String := "EOF"

/-- `io.ErrUnexpectedEOF`. -/
def unexpectedEOF : String := "unexpected EOF"

/-- `r.Len()`: how many bytes are left. -/
def len : Reader ℕ := fun s => .ok (s.length, s)

/-- `ReadByte`. -/
def readByte : Reader UInt8 := fun s =>
  match s with
  | [] => .error eof
  | b :: rest => .ok (b, rest)

/-- `io.ReadFull` into a buffer of `n` bytes: `EOF` when nothing is left, `unexpected EOF` when
fewer than `n` bytes are. -/
def readFull (n : ℕ) : Reader (List UInt8) := fun s =>
  if n ≤ s.length then .ok (s.take n, s.drop n)
  else if s = [] then .error eof
  else .error unexpectedEOF

/-- `Read` into a buffer of `n` bytes, what the buffer holds after the call: the bytes left, up to
`n`, then the zeros it was made with. With nothing left it returns `EOF`, also for an empty
buffer. -/
def read (n : ℕ) : Reader (List UInt8) := fun s =>
  if s = [] then .error eof else .ok (s.take n ++ List.replicate (n - s.length) 0, s.drop n)

/-- `Seek(n, io.SeekCurrent)` forward: a position past the end leaves nothing to read. -/
def seek (n : ℕ) : Reader Unit := fun s => .ok ((), s.drop n)

/-- `fmt.Errorf(pfx + ": %w", err)` on the error of a read. -/
def wrap (pfx : String) (x : Reader α) : Reader α := fun s =>
  (x s).mapError fun e => pfx ++ ": " ++ e

/-! #### How reads compose -/

@[simp] lemma pure_apply (a : α) (s : List UInt8) : (pure a : Reader α) s = .ok (a, s) := rfl

@[simp] lemma throw_apply (e : String) (s : List UInt8) : (throw e : Reader α) s = .error e := rfl

lemma bind_apply (x : Reader α) (f : α → Reader β) (s : List UInt8) :
    (x >>= f) s = (x s).bind fun p => f p.1 p.2 := rfl

/-- The step rule of a sequence of reads: once the first read is known, the rest reads on. -/
lemma bind_of_ok {x : Reader α} {s s' : List UInt8} {a : α} (h : x s = .ok (a, s'))
    (f : α → Reader β) : (x >>= f) s = f a s' := by
  rw [bind_apply, h]
  rfl

/-- A failed read fails the sequence. -/
lemma bind_of_error {x : Reader α} {s : List UInt8} {e : String} (h : x s = .error e)
    (f : α → Reader β) : (x >>= f) s = .error e := by
  rw [bind_apply, h]
  rfl

lemma map_of_ok {x : Reader α} {s s' : List UInt8} {a : α} (h : x s = .ok (a, s'))
    (f : α → β) : (f <$> x) s = .ok (f a, s') := by
  show (x s).map (fun p => (f p.1, p.2)) = _
  rw [h]
  rfl

/-- A call that cannot read, lifted into a read. -/
lemma lift_of_ok {x : Except String α} {a : α} (h : x = .ok a) (s : List UInt8) :
    (monadLift x : Reader α) s = .ok (a, s) := by
  subst h
  rfl

lemma wrap_of_ok {x : Reader α} {s s' : List UInt8} {a : α} (h : x s = .ok (a, s'))
    (pfx : String) : wrap pfx x s = .ok (a, s') := by
  simp [wrap, h, Except.mapError]

/-- A wrapped read succeeds exactly when the read does. -/
lemma wrap_eq_ok {x : Reader α} {s s' : List UInt8} {a : α} {pfx : String} :
    wrap pfx x s = .ok (a, s') ↔ x s = .ok (a, s') := by
  simp [wrap]

@[simp] lemma len_apply (s : List UInt8) : len s = .ok (s.length, s) := rfl

@[simp] lemma readByte_cons (b : UInt8) (rest : List UInt8) : readByte (b :: rest) = .ok (b, rest) :=
  rfl

/-- `io.ReadFull` takes exactly the bytes asked for when they are there. -/
lemma readFull_append (bs rest : List UInt8) :
    readFull bs.length (bs ++ rest) = .ok (bs, rest) := by
  simp [readFull]

lemma readFull_of_le {n : ℕ} {s : List UInt8} (h : n ≤ s.length) :
    readFull n s = .ok (s.take n, s.drop n) := by
  simp [readFull, h]

/-- A read of `n` bytes that succeeds took the first `n`. -/
lemma readFull_eq_ok {n : ℕ} {s a s' : List UInt8} (h : readFull n s = .ok (a, s')) :
    n ≤ s.length ∧ a = s.take n ∧ s' = s.drop n := by
  unfold readFull at h
  split_ifs at h with hn hs
  · cases h
    exact ⟨hn, rfl, rfl⟩

/-- `Read` of a buffer's worth of bytes that are there, with something left to read. -/
lemma read_append {bs rest : List UInt8} (h : bs ++ rest ≠ []) :
    read bs.length (bs ++ rest) = .ok (bs, rest) := by
  simp [read, h]

/-- `Read` at the end of the input fails, whatever the buffer. -/
@[simp] lemma read_nil (n : ℕ) : read n [] = .error eof := rfl

@[simp] lemma seek_apply (n : ℕ) (s : List UInt8) : seek n s = .ok ((), s.drop n) := rfl

/-- A wrapped read that succeeds is the read. -/
lemma eq_ok_of_wrap {x : Reader α} {s s' : List UInt8} {a : α} {pfx : String}
    (h : wrap pfx x s = .ok (a, s')) : x s = .ok (a, s') :=
  wrap_eq_ok.mp h

/-- The first read of a sequence that succeeds succeeded. -/
lemma bind_eq_ok {x : Reader α} {f : α → Reader β} {s s' : List UInt8} {b : β} :
    (x >>= f) s = .ok (b, s') ↔ ∃ a s₁, x s = .ok (a, s₁) ∧ f a s₁ = .ok (b, s') := by
  rw [bind_apply]
  cases h : x s with
  | error e => simp [Except.bind]
  | ok p =>
    obtain ⟨a, s₁⟩ := p
    simp [Except.bind]

/-- A read of a whole slice that leaves the rest unread, as an `UnmarshalBinary` that does not
ask for every byte to be read. -/
lemma run'_of_ok {x : Reader α} {s s' : List UInt8} {a : α} (h : x s = .ok (a, s')) :
    x.run' s = .ok a := by
  simp [StateT.run', h]

lemma run'_of_error {x : Reader α} {s : List UInt8} {e : String} (h : x s = .error e) :
    x.run' s = .error e := by
  simp [StateT.run', h]

/-- What reads back whatever follows it reads back alone. -/
lemma run'_of_readBack {x : Reader α} {s : List UInt8} {a : α}
    (h : ∀ rest, x (s ++ rest) = .ok (a, rest)) : x.run' s = .ok a := by
  have h0 := h []
  rw [List.append_nil] at h0
  exact run'_of_ok h0

/-- `n` reads of `x` in a row: a Go loop that fills a slice of `n` elements. -/
def readN (x : Reader α) : ℕ → Reader (List α)
  | 0 => pure []
  | n + 1 => do
    let a ← x
    let as ← readN x n
    pure (a :: as)

/-- The loop rule: when `x` reads back the bytes of each element, `k` reads read back the first
`k` elements and leave the bytes of the others. -/
theorem readN_flatMap_take {γ : Type} (x : Reader α) (enc : γ → List UInt8) (dec : γ → α)
    (l : List γ) (hx : ∀ c ∈ l, ∀ rest, x (enc c ++ rest) = .ok (dec c, rest)) (rest : List UInt8) :
    ∀ k ≤ l.length, readN x k (l.flatMap enc ++ rest) =
      .ok ((l.take k).map dec, (l.drop k).flatMap enc ++ rest) := by
  induction l with
  | nil =>
    intro k hk
    obtain rfl : k = 0 := Nat.le_zero.mp hk
    rfl
  | cons c l ih =>
    rintro (_ | k) hk
    · rfl
    have hc := hx c List.mem_cons_self (l.flatMap enc ++ rest)
    have hl := ih (fun c' hc' => hx c' (List.mem_cons_of_mem c hc')) k (by simpa using hk)
    rw [List.flatMap_cons, List.append_assoc, readN, bind_of_ok hc, bind_of_ok hl]
    rfl

theorem readN_flatMap {γ : Type} (x : Reader α) (enc : γ → List UInt8) (dec : γ → α)
    (l : List γ) (hx : ∀ c ∈ l, ∀ rest, x (enc c ++ rest) = .ok (dec c, rest))
    (rest : List UInt8) :
    readN x l.length (l.flatMap enc ++ rest) = .ok (l.map dec, rest) := by
  simpa using readN_flatMap_take x enc dec l hx rest l.length le_rfl

/-- The loop rule over encodings given one per element: when each element's bytes read back as
the element, whatever follows them, the loop reads back all the elements. -/
theorem readN_flatten {x : Reader α} :
    ∀ {as : List α} {bss : List (List UInt8)},
      List.Forall₂ (fun a bs => ∀ rest, x (bs ++ rest) = .ok (a, rest)) as bss →
      ∀ rest, readN x as.length (bss.flatten ++ rest) = .ok (as, rest)
  | _, _, .nil, _ => rfl
  | a :: as, bs :: bss, .cons hab h, rest => by
    rw [List.flatten_cons, List.append_assoc, List.length_cons, readN, bind_of_ok (hab _),
      bind_of_ok (readN_flatten h rest)]
    rfl

/-- A loop fails at the first element that fails to read, however many turns it had left. -/
theorem readN_flatten_of_error {x : Reader α} {s : List UInt8} {e : String}
    (hs : x s = .error e) (k : ℕ) :
    ∀ {as : List α} {bss : List (List UInt8)},
      List.Forall₂ (fun a bs => ∀ rest, x (bs ++ rest) = .ok (a, rest)) as bss →
      readN x (as.length + k + 1) (bss.flatten ++ s) = .error e
  | _, _, .nil => by
    rw [List.length_nil, Nat.zero_add, List.flatten_nil, List.nil_append, readN, bind_of_error hs]
  | a :: as, bs :: bss, .cons hab h => by
    rw [List.flatten_cons, List.append_assoc, List.length_cons,
      show as.length + 1 + k + 1 = as.length + k + 1 + 1 by omega, readN, bind_of_ok (hab _),
      bind_of_error (readN_flatten_of_error hs k h)]

/-! #### Reads that only consume -/

/-- A read that never adds input: what it leaves is a suffix of what it was given. A reader
that seeks within what is left, as `bytes.Reader` does forward, has this property. -/
def Consumes (x : Reader α) : Prop := ∀ s a s', x s = .ok (a, s') → s' <:+ s

lemma consumes_pure (a : α) : Consumes (pure a : Reader α) := by
  intro s b s' h
  cases h
  exact List.suffix_refl s

lemma consumes_throw (e : String) : Consumes (throw e : Reader α) := by
  intro s b s' h
  cases h

lemma Consumes.bind {x : Reader α} {f : α → Reader β} (hx : Consumes x)
    (hf : ∀ a, Consumes (f a)) : Consumes (x >>= f) := by
  intro s b s' h
  obtain ⟨a, s₁, h₁, h₂⟩ := bind_eq_ok.mp h
  exact (hf a s₁ b s' h₂).trans (hx s a s₁ h₁)

lemma Consumes.wrap {x : Reader α} (hx : Consumes x) (pfx : String) : Consumes (wrap pfx x) :=
  fun s a s' h => hx s a s' (eq_ok_of_wrap h)

lemma Consumes.map {x : Reader α} (hx : Consumes x) (f : α → β) : Consumes (f <$> x) := by
  rw [map_eq_bind_pure_comp]
  exact hx.bind fun _ => consumes_pure _

lemma consumes_readFull (n : ℕ) : Consumes (readFull n) := by
  intro s a s' h
  rw [(readFull_eq_ok h).2.2]
  exact List.drop_suffix n s

end Reader

/-! ### Fixed-width integers -/

/-- The number whose bytes, least significant first, are `bs`. -/
def leNat (bs : List UInt8) : ℕ := bs.foldr (fun b acc => b.toNat + 256 * acc) 0

/-- `leNat` reads back the `w` low bytes that `leBytes` writes. -/
@[simp] lemma leNat_leBytes (w n : ℕ) : leNat (leBytes w n) = n % 256 ^ w := by
  induction w generalizing n with
  | zero => simp [leNat, leBytes, Nat.mod_one]
  | succ w ih =>
    have h := ih (n / 256)
    simp only [leNat, leBytes, List.foldr_cons] at h ⊢
    rw [h, pow_succ', Nat.mod_mul]
    simp

/-- `beNat` reads back the `w` low bytes that `beBytes` writes. -/
@[simp] lemma beNat_beBytes (w n : ℕ) : beNat (beBytes w n) = n % 256 ^ w := by
  have h : beNat (leBytes w n).reverse = leNat (leBytes w n) := by
    rw [beNat, List.foldl_reverse, leNat]
    congr 1
    funext b acc
    ring
  rw [beBytes, h, leNat_leBytes]

/-- `binary.Read` of a `w`-byte unsigned integer, little-endian. -/
def readUint (w : ℕ) : Reader ℕ := do
  let bs ← Reader.readFull w
  pure (leNat bs)

/-- `binary.Read` reads back what `binary.Write` wrote. -/
theorem readUint_leBytes (w n : ℕ) (rest : List UInt8) :
    readUint w (leBytes w n ++ rest) = .ok (n % 256 ^ w, rest) := by
  have h := Reader.readFull_append (leBytes w n) rest
  rw [length_leBytes] at h
  rw [readUint, Reader.bind_of_ok h]
  simp

lemma consumes_readUint (w : ℕ) : Reader.Consumes (readUint w) :=
  (Reader.consumes_readFull w).bind fun _ => Reader.consumes_pure _

/-! ### Varints -/

/-- `binary.AppendUvarint(nil, x)`. -/
def appendUvarint (x : ℕ) : List UInt8 :=
  if x < 128 then [UInt8.ofNat x] else UInt8.ofNat (x % 128 + 128) :: appendUvarint (x / 128)
termination_by x
decreasing_by omega

/-- The zig-zag code of a signed integer: `uint64(x) << 1`, complemented when `x` is negative.
It sends `0, -1, 1, -2, …` to `0, 1, 2, 3, …`. -/
def zigzag (x : ℤ) : ℕ := if x < 0 then 2 * (-x).toNat - 1 else 2 * x.toNat

/-- `binary.AppendVarint(nil, x)`. -/
def appendVarint (x : ℤ) : List UInt8 := appendUvarint (zigzag x)

/-- `binary`'s `errOverflow`. -/
def varintOverflow : String := "binary: varint overflows a 64-bit integer"

/-- The loop of `binary.ReadUvarint`, with `left` of its ten iterations to go: `x` holds the bits
read so far and the next byte's seven go in at bit `s`. A byte below `0x80` ends the number; the
tenth must be at most one, so that the number fits in 64 bits. -/
def uvarintLoop : (left x s : ℕ) → Reader ℕ
  | 0, _, _ => throw varintOverflow
  | left + 1, x, s => fun bs =>
    match bs with
    | [] => .error (if s = 0 then Reader.eof else Reader.unexpectedEOF)
    | b :: rest =>
      if b.toNat < 128 then
        if left = 0 ∧ 1 < b.toNat then .error varintOverflow
        else .ok (x + b.toNat * 2 ^ s, rest)
      else uvarintLoop left (x + (b.toNat - 128) * 2 ^ s) (s + 7) rest

/-- `binary.ReadUvarint`. -/
def readUvarint : Reader ℕ := uvarintLoop 10 0 0

/-- `binary.ReadVarint`: the unsigned varint, zig-zag decoded. -/
def readVarint : Reader ℤ := do
  let ux ← readUvarint
  let x : ℤ := (ux / 2 : ℕ)
  pure (if ux % 2 = 1 then -x - 1 else x)

section Varint

lemma appendUvarint_of_lt {x : ℕ} (h : x < 128) : appendUvarint x = [UInt8.ofNat x] := by
  rw [appendUvarint, if_pos h]

lemma appendUvarint_of_ge {x : ℕ} (h : 128 ≤ x) :
    appendUvarint x = UInt8.ofNat (x % 128 + 128) :: appendUvarint (x / 128) := by
  rw [appendUvarint, if_neg (by omega)]

lemma appendUvarint_ne_nil (x : ℕ) : appendUvarint x ≠ [] := by
  rw [appendUvarint]
  split <;> simp

/-- One byte below 128, and one more for every further seven bits. -/
lemma length_appendUvarint (x : ℕ) :
    (appendUvarint x).length = if x < 128 then 1 else (appendUvarint (x / 128)).length + 1 := by
  rw [appendUvarint]
  split <;> simp

/-- **The loop reads back an encoded number.** With `left` iterations to go, a number whose
encoding fits (below `2^(7 left - 6)`, which is `2^64` for the ten of `ReadUvarint`) is read and
added at bit `s`. The induction is on `left`, one byte per step. -/
theorem uvarintLoop_appendUvarint (rest : List UInt8) :
    ∀ (left y x s : ℕ), 1 ≤ left → y < 2 ^ (7 * left - 6) →
      uvarintLoop left x s (appendUvarint y ++ rest) = .ok (x + y * 2 ^ s, rest)
  | 0, _, _, _, h, _ => absurd h (by omega)
  | left + 1, y, x, s, _, hy => by
    by_cases hlt : y < 128
    · -- the last byte: below 2 when it is the tenth
      have hb : (UInt8.ofNat y).toNat = y := by simp; omega
      rw [appendUvarint_of_lt hlt, List.singleton_append, uvarintLoop]
      have hlast : ¬ (left = 0 ∧ 1 < y) := by
        rintro ⟨rfl, h1⟩
        simp at hy
        omega
      simp only [hb, hlt, if_true, hlast, if_false]
    · -- a continuation byte: the rest of the number is read seven bits higher
      have hleft : 1 ≤ left := by
        by_contra h0
        have : left = 0 := by omega
        subst this
        simp at hy
        omega
      have hb : (UInt8.ofNat (y % 128 + 128)).toNat = y % 128 + 128 := by
        simp; omega
      have hpow : 2 ^ (7 * (left + 1) - 6) = 2 ^ (7 * left - 6) * 128 := by
        rw [show 7 * (left + 1) - 6 = (7 * left - 6) + 7 by omega, pow_add]
        norm_num
      have hy' : y / 128 < 2 ^ (7 * left - 6) := by
        rw [hpow] at hy
        exact Nat.div_lt_of_lt_mul (by rw [Nat.mul_comm]; exact hy)
      rw [appendUvarint_of_ge (by omega), List.cons_append, uvarintLoop]
      simp only [hb, show ¬ (y % 128 + 128 < 128) by omega, if_false,
        show y % 128 + 128 - 128 = y % 128 by omega]
      rw [uvarintLoop_appendUvarint rest left (y / 128) _ (s + 7) hleft hy']
      congr 2
      rw [pow_add]
      have := Nat.div_add_mod y 128
      calc x + y % 128 * 2 ^ s + y / 128 * (2 ^ s * 2 ^ 7)
          = x + (y % 128 + 128 * (y / 128)) * 2 ^ s := by ring
        _ = x + y * 2 ^ s := by rw [Nat.mod_add_div]

/-- **`ReadUvarint` reads back `AppendUvarint`** for every value of 64 bits, and leaves the bytes
after it. -/
theorem readUvarint_appendUvarint {x : ℕ} (hx : x < 2 ^ 64) (rest : List UInt8) :
    readUvarint (appendUvarint x ++ rest) = .ok (x, rest) := by
  have h := uvarintLoop_appendUvarint rest 10 x 0 0 (by omega) hx
  simpa [readUvarint] using h

/-- Zig-zag decoding undoes `zigzag`. -/
lemma unzigzag_zigzag (x : ℤ) :
    (if zigzag x % 2 = 1 then -((zigzag x / 2 : ℕ) : ℤ) - 1 else ((zigzag x / 2 : ℕ) : ℤ)) = x := by
  unfold zigzag
  split_ifs <;> omega

lemma zigzag_lt {x : ℤ} (h₁ : -2 ^ 63 ≤ x) (h₂ : x < 2 ^ 63) : zigzag x < 2 ^ 64 := by
  unfold zigzag
  split_ifs <;> omega

/-- **`ReadVarint` reads back `AppendVarint`** for every value of 64 bits. -/
theorem readVarint_appendVarint {x : ℤ} (h₁ : -2 ^ 63 ≤ x) (h₂ : x < 2 ^ 63)
    (rest : List UInt8) : readVarint (appendVarint x ++ rest) = .ok (x, rest) := by
  rw [readVarint, appendVarint,
    Reader.bind_of_ok (readUvarint_appendUvarint (zigzag_lt h₁ h₂) rest)]
  simp only [Reader.pure_apply, unzigzag_zigzag]

lemma consumes_uvarintLoop (left x s : ℕ) : Reader.Consumes (uvarintLoop left x s) := by
  induction left generalizing x s with
  | zero => exact Reader.consumes_throw _
  | succ left ih =>
    -- each byte read either ends the number or goes on with the rest
    rintro (_ | ⟨b, rest⟩) v s' h
    · cases h
    · simp only [uvarintLoop] at h
      split_ifs at h
      · cases h
        exact List.suffix_cons b rest
      · exact (ih _ _ rest v s' h).trans (List.suffix_cons b rest)

lemma consumes_readUvarint : Reader.Consumes readUvarint := consumes_uvarintLoop 10 0 0

lemma consumes_readVarint : Reader.Consumes readVarint :=
  consumes_readUvarint.bind fun _ => Reader.consumes_pure _

/-- **`ReadUvarint` accepts an overlong form**: a continuation byte with nothing in it followed
by a zero byte reads as zero, whose own form is the one byte `0`. -/
theorem readUvarint_overlong (rest : List UInt8) :
    readUvarint (128 :: 0 :: rest) = .ok (0, rest) ∧ appendUvarint 0 = [0] := by
  refine ⟨rfl, ?_⟩
  rw [appendUvarint_of_lt (by norm_num)]
  rfl

end Varint

/-! ### Reading at offsets

An `UnmarshalBinary` that does not use a reader keeps an offset into the bytes and reads each
element of a list at it, moving the offset by the element's `SerializeSize`. -/

section Offsets

variable {ε α : Type}

/-- A field read at its offset: the bytes after those written before it, as many as it has. -/
lemma take_drop_of_append (pre mid post : List UInt8) :
    ((pre ++ mid ++ post).drop pre.length).take mid.length = mid := by
  rw [List.append_assoc, List.drop_left' rfl, List.take_left' rfl]

/-- A loop that reads `n` values at offsets into `data`, each at the offset after the one
before, and returns them with the offset after the last; `short` is its error when an offset
reaches the end of the bytes. -/
def readAt (decode : List UInt8 → Except ε α) (size : α → ℕ) (short : ε) (data : List UInt8) :
    ℕ → ℕ → Except ε (List α × ℕ)
  | 0, offset => .ok ([], offset)
  | n + 1, offset =>
    if offset ≥ data.length then .error short
    else
      match decode (data.drop offset) with
      | .error e => .error e
      | .ok a => (readAt decode size short data n (offset + size a)).map fun (as, o) => (a :: as, o)

/-- The loop reads back values written one after another from `offset` on, whatever follows
them. -/
theorem readAt_flatMap {decode : List UInt8 → Except ε α} {size : α → ℕ} {short : ε}
    {enc : α → List UInt8} {data rest : List UInt8} {as : List α} {offset : ℕ}
    (hdec : ∀ a ∈ as, ∀ rest, decode (enc a ++ rest) = .ok a)
    (hsize : ∀ a ∈ as, (enc a).length = size a) (hpos : ∀ a ∈ as, enc a ≠ [])
    (h : data.drop offset = as.flatMap enc ++ rest) :
    readAt decode size short data as.length offset = .ok (as, offset + (as.map size).sum) := by
  induction as generalizing offset with
  | nil => simp [readAt]
  | cons a as ih =>
    have ha : data.drop offset = enc a ++ (as.flatMap enc ++ rest) := by simpa using h
    have hlt : offset < data.length := by
      have hlen := congrArg List.length ha
      have hne := List.length_pos_iff.mpr (hpos a (by simp))
      simp only [List.length_drop, List.length_append] at hlen
      omega
    have hnext : data.drop (offset + size a) = as.flatMap enc ++ rest := by
      rw [← List.drop_drop, ha, ← hsize a (by simp), List.drop_left]
    have ih' := ih (fun a' h' => hdec a' (by simp [h'])) (fun a' h' => hsize a' (by simp [h']))
      (fun a' h' => hpos a' (by simp [h'])) hnext
    rw [List.length_cons, readAt, if_neg (by omega), ha, hdec a (by simp)]
    simp only [ih', Except.map]
    simp [Nat.add_assoc]

end Offsets

end KwilDb.Lib
