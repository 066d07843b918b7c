import Mathlib

/-!
# `strconv` and `strings` of Go's standard library

The number and boolean texts of `strconv` and the `strings.Split` / `strings.Join` pair, as the
standard library has them for base 10 and 64 bits. An error's text quotes the input between
double quotes; Go's `strconv.Quote` also escapes non-printable characters, which is not modelled.

`parseInt_toString`: the decimal text of an integer in the `int64` range reads back.

Nothing in this file names the node.
-/

namespace KwilDb.Lib.Strconv

/-- `strconv.FormatBool`. -/
def formatBool (b : Bool) : String := if b then "true" else "false"

/-- `strconv.ParseBool`. -/
def parseBool (s : String) : Except String Bool :=
  match s with
  | "1" | "t" | "T" | "TRUE" | "true" | "True" => .ok true
  | "0" | "f" | "F" | "FALSE" | "false" | "False" => .ok false
  | _ => .error ("strconv.ParseBool: parsing \"" ++ s ++ "\": invalid syntax")

/-- `strconv.FormatInt(i, 10)`. -/
def formatInt (i : Int64) : String := toString i.toInt

/-- Why `strconv.ParseUint` stopped: a character that is not a digit, or a value past 64 bits. -/
inductive NumError where
  | invalid
  | outOfRange
deriving DecidableEq, Repr

/-- The digit loop of `strconv.ParseUint(s, 10, 64)`: each character must be a digit, and the
value is checked against `cutoff` before it is multiplied and against `maxUint64` after. -/
def parseUintLoop : List Char → ℕ → Except NumError ℕ
  | [], n => .ok n
  | c :: cs, n =>
    if c.isDigit then
      if n ≥ (2 ^ 64 - 1) / 10 + 1 then .error .outOfRange
      else
        let n₁ := n * 10 + (c.toNat - '0'.toNat)
        if n₁ > 2 ^ 64 - 1 then .error .outOfRange else parseUintLoop cs n₁
    else .error .invalid

/-- `strconv.ParseInt(s, 10, 64)`: an optional sign, then the digits of `ParseUint`, then the
bound of a signed 64-bit integer on either side. -/
def parseInt (s : String) : Except String Int64 :=
  let fail (e : NumError) : Except String Int64 :=
    .error ("strconv.ParseInt: parsing \"" ++ s ++ "\": " ++
      match e with | .invalid => "invalid syntax" | .outOfRange => "value out of range")
  let (neg, digits) : Bool × List Char :=
    match s.toList with
    | '+' :: r => (false, r)
    | '-' :: r => (true, r)
    | r => (false, r)
  if s.toList = [] ∨ digits = [] then fail .invalid
  else
    match parseUintLoop digits 0 with
    | .error e => fail e
    | .ok n =>
      if !neg && n ≥ 2 ^ 63 then fail .outOfRange
      else if neg && n > 2 ^ 63 then fail .outOfRange
      else .ok (Int64.ofInt (if neg then -(n : ℤ) else n))

/-- The digit loop reads a string of digits as the number they write, when that number has
64 bits: no check on the way stops it. -/
theorem parseUintLoop_of_isDigit {cs : List Char} (hcs : ∀ c ∈ cs, c.isDigit)
    {n : ℕ} (hlt : Nat.ofDigitChars 10 cs n ≤ 2 ^ 64 - 1) :
    parseUintLoop cs n = .ok (Nat.ofDigitChars 10 cs n) := by
  induction cs generalizing n with
  | nil => simp [parseUintLoop]
  | cons c cs ih =>
    rw [Nat.ofDigitChars_cons] at hlt ⊢
    -- the value so far never exceeds the final one, which bounds both checks
    have hmono : Nat.ofDigitChars 10 cs (10 * n + (c.toNat - '0'.toNat)) =
        10 ^ cs.length * (10 * n + (c.toNat - '0'.toNat)) + Nat.ofDigitChars 10 cs 0 :=
      Nat.ofDigitChars_eq_ofDigitChars_zero
    have hpos : 0 < 10 ^ cs.length := by positivity
    have hle : 10 * n + (c.toNat - '0'.toNat) ≤ 2 ^ 64 - 1 := by
      have := Nat.le_mul_of_pos_left (10 * n + (c.toNat - '0'.toNat)) hpos
      omega
    rw [parseUintLoop, if_pos (hcs c (by simp)), if_neg (by omega), if_neg (by omega),
      Nat.mul_comm n 10]
    exact ih (fun c' h' => hcs c' (by simp [h'])) hlt

/-- `strconv.ParseInt` of digits with no sign. -/
lemma parseInt_of_digits {s : String} {c : Char} {r : List Char} (hs : s.toList = c :: r)
    (hc : c.isDigit) {n : ℕ} (hv : parseUintLoop (c :: r) 0 = .ok n) (hn : n < 2 ^ 63) :
    parseInt s = .ok (Int64.ofInt n) := by
  have h₁ : c ≠ '+' := by rintro rfl; simp at hc
  have h₂ : c ≠ '-' := by rintro rfl; simp at hc
  unfold parseInt
  simp only [hs]
  -- a digit is neither sign, so the whole text is the digits
  split
  · rename_i heq
    exact absurd (List.cons.inj heq).1 h₁
  · rename_i heq
    exact absurd (List.cons.inj heq).1 h₂
  · simp only [reduceCtorEq, or_self, if_false, hv, Bool.not_false, Bool.true_and,
      decide_eq_true_eq, Bool.false_and, Bool.false_eq_true]
    rw [if_neg (by omega)]

/-- `strconv.ParseInt` of digits behind a minus sign. -/
lemma parseInt_of_minus_digits {s : String} {ds : List Char} (hs : s.toList = '-' :: ds)
    (hne : ds ≠ []) {n : ℕ} (hv : parseUintLoop ds 0 = .ok n) (hn : n ≤ 2 ^ 63) :
    parseInt s = .ok (Int64.ofInt (-n)) := by
  unfold parseInt
  simp only [hs, reduceCtorEq, hne, or_self, if_false, hv, Bool.not_true, Bool.false_and,
    Bool.false_eq_true, Bool.true_and, decide_eq_true_eq, if_true]
  rw [if_neg (by omega)]

/-- `strconv.ParseInt` reads back the text of every integer of 64 bits. -/
theorem parseInt_toString {n : ℤ} (h₁ : -2 ^ 63 ≤ n) (h₂ : n < 2 ^ 63) :
    parseInt (toString n) = .ok (Int64.ofInt n) := by
  have hdigits (m : ℕ) (hm : m ≤ 2 ^ 64 - 1) : parseUintLoop (Nat.toDigits 10 m) 0 = .ok m := by
    rw [parseUintLoop_of_isDigit (fun c hc => Nat.isDigit_of_mem_toDigits (by norm_num)
      (by norm_num) hc) (by simpa using hm), Nat.ofDigitChars_ten_toDigits]
  cases n with
  | ofNat m =>
    have hm : m < 2 ^ 63 := by simp only [Int.ofNat_eq_natCast] at h₂; omega
    obtain ⟨c, r, hcr⟩ := List.exists_cons_of_ne_nil (Nat.toDigits_ne_nil (n := m) (b := 10))
    have hc := Nat.isDigit_of_mem_toDigits (b := 10) (c := c) (n := m) (by norm_num) (by norm_num)
      (by rw [hcr]; exact List.mem_cons_self)
    have hs : (toString (Int.ofNat m)).toList = c :: r := Nat.toList_repr.trans hcr
    exact parseInt_of_digits hs hc (hcr ▸ hdigits m (by omega)) hm
  | negSucc m =>
    have hm : m + 1 ≤ 2 ^ 63 := by simp only [Int.negSucc_eq] at h₁; omega
    have hs : (toString (Int.negSucc m)).toList = '-' :: Nat.toDigits 10 (m + 1) := by
      show ("-" ++ Nat.repr (m + 1)).toList = _
      simp
    have h := parseInt_of_minus_digits hs Nat.toDigits_ne_nil (hdigits (m + 1) (by omega)) hm
    rwa [show -((m + 1 : ℕ) : ℤ) = Int.negSucc m from rfl] at h

/-- The pieces of `cs` between the occurrences of `sep`. -/
def splitChars (sep : Char) : List Char → List (List Char)
  | [] => [[]]
  | c :: cs =>
    if c = sep then [] :: splitChars sep cs
    else
      match splitChars sep cs with
      | w :: ws => (c :: w) :: ws
      | [] => [[c]]

/-- `strings.Split(s, sep)` for a separator of one character. -/
def split (s : String) (sep : Char) : List String := (splitChars sep s.toList).map String.ofList

/-- `strings.Join(elems, sep)`. -/
def join (elems : List String) (sep : Char) : String :=
  String.ofList (List.intercalate [sep] (elems.map String.toList))

end KwilDb.Lib.Strconv
