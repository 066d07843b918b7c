import KwilDb.Lib.Binary
import KwilDb.Core.Types

/-!
# The binary form of a transaction's result

`TxResult.MarshalBinary` writes a version, the code, the log behind its `uint32` length and the
events behind their `uint16` count, each event behind its own `uint16` length; everything is
big-endian. `UnmarshalBinary` reads the same fields at offsets into its input, checking the
length before each read, and fills the receiver's fields with them.

The encoding has no place for the gas. A result read back keeps the code, the log and the events,
and the receiver's gas, zero in every caller (`readBack_keeps_all_but_gas`): the block store hands
out results whose gas is zero whatever the execution reported (`TxResult.withoutGas`).
-/

namespace KwilDb.Types

open KwilDb.Lib
open KwilDb.Core (Bytes)

/-- `Event`, which has no fields yet. -/
structure Event where
deriving DecidableEq, Repr

/-- `Event.MarshalBinary`: no bytes. -/
def Event.marshalBinary (_ : Event) : Except String Bytes := .ok []

/-- `Event.UnmarshalBinary`: reads nothing. -/
def Event.unmarshalBinary (_ : Bytes) : Except String Event := .ok ⟨⟩

/-- `TxResult`. The log, a Go `string`, is its bytes. -/
structure TxResult where
  code : UInt32
  gas : Int64
  log : Bytes
  events : List Event
deriving DecidableEq, Repr

/-- The zero `TxResult`, as `var result ktypes.TxResult` declares it. -/
def TxResult.zero : TxResult := ⟨0, 0, [], []⟩

/-- `txResultsVer`. -/
def txResultsVer : ℕ := 0

/-- **`TxResult.MarshalBinary`.** The gas is not written. -/
def TxResult.marshalBinary (tr : TxResult) : Except String Bytes := do
  let data := beBytes 2 txResultsVer ++ beBytes 4 tr.code.toNat ++ beBytes 4 tr.log.length ++ tr.log
  if tr.events.length > 65535 then throw "too many events"
  let evts ← tr.events.mapM fun event => do
    let evt ← event.marshalBinary
    pure (beBytes 2 evt.length ++ evt)
  pure (data ++ beBytes 2 tr.events.length ++ evts.flatten)

/-- The loop of `UnmarshalBinary` over the events, at an offset into the input with `n` to go:
each event's length, checked against what is left, then the event. -/
def readEvents (data : Bytes) : (n offset : ℕ) → Except String (List Event × ℕ)
  | 0, offset => .ok ([], offset)
  | n + 1, offset => do
    if data.length < offset + 2 then throw "insufficient data for event length"
    let eventLen := beNat ((data.drop offset).take 2)
    if data.length < offset + 2 + eventLen then throw "insufficient data for event"
    let event ← Event.unmarshalBinary ((data.drop (offset + 2)).take eventLen)
    let (events, offset) ← readEvents data n (offset + 2 + eventLen)
    pure (event :: events, offset)

/-- **`TxResult.UnmarshalBinary`** into the receiver `tr`: its code, log and events are set, its
gas stays. Bytes after the events are not looked at. -/
def TxResult.unmarshalBinary (tr : TxResult) (data : Bytes) : Except String TxResult := do
  if data.length < 10 then throw "insufficient data"
  let version := beNat (data.take 2)
  if version ≠ txResultsVer then throw ("unsupported version " ++ toString version)
  let code := beNat ((data.drop 2).take 4)
  let logLen := beNat ((data.drop 6).take 4)
  if data.length < 10 + logLen then throw "insufficient data for log"
  let log := (data.drop 10).take logLen
  if data.length < 10 + logLen + 2 then throw "insufficient data for events length"
  let numEvents := beNat ((data.drop (10 + logLen)).take 2)
  let (events, _) ← readEvents data numEvents (10 + logLen + 2)
  pure { tr with code := UInt32.ofNat code, log, events }

/-! ### Reading a result back -/

/-- A result as its encoding keeps it: the gas is zero. -/
def TxResult.withoutGas (tr : TxResult) : TxResult := { tr with gas := 0 }

/-- A loop that marshals each event to the same bytes. -/
lemma mapM_const_ok (c : Bytes) :
    ∀ l : List Event, l.mapM (fun _ => (.ok c : Except String Bytes)) =
      .ok (List.replicate l.length c)
  | [] => rfl
  | e :: l => by
    rw [List.mapM_cons, mapM_const_ok c l]
    rfl

/-- The bytes `MarshalBinary` writes for a result whose events fit their count: the events are
empty, so each is its length `0`. -/
def TxResult.encoding (tr : TxResult) : Bytes :=
  beBytes 2 txResultsVer ++ beBytes 4 tr.code.toNat ++ beBytes 4 tr.log.length ++ tr.log ++
    beBytes 2 tr.events.length ++ (List.replicate tr.events.length (beBytes 2 0)).flatten

/-- **`MarshalBinary`'s bytes**, for at most 65535 events. -/
lemma TxResult.marshalBinary_of_le {tr : TxResult} (hn : tr.events.length ≤ 65535) :
    tr.marshalBinary = .ok tr.encoding := by
  have hn' : ¬ tr.events.length > 65535 := by omega
  simp only [TxResult.marshalBinary, hn', if_false]
  rw [show (fun event : Event => do
      let evt ← event.marshalBinary
      pure (beBytes 2 evt.length ++ evt) : Event → Except String Bytes) =
        fun _ => .ok (beBytes 2 0) from rfl, mapM_const_ok]
  rfl

/-- And those are the only bytes it writes. -/
lemma TxResult.marshalBinary_eq_ok {tr : TxResult} {bytes : Bytes}
    (h : tr.marshalBinary = .ok bytes) : tr.events.length ≤ 65535 ∧ bytes = tr.encoding := by
  by_cases hn : tr.events.length ≤ 65535
  · exact ⟨hn, Except.ok.inj (h.symm.trans (TxResult.marshalBinary_of_le hn))⟩
  · simp [TxResult.marshalBinary, show tr.events.length > 65535 by omega] at h

/-- The loop reads back `n` empty events, whatever follows them. -/
lemma readEvents_replicate (data rest : Bytes) :
    ∀ (n offset : ℕ), data.drop offset = (List.replicate n (beBytes 2 0)).flatten ++ rest →
      readEvents data n offset = .ok (List.replicate n ⟨⟩, offset + 2 * n)
  | 0, offset, _ => rfl
  | n + 1, offset, h => by
    have h' : data.drop offset = beBytes 2 0 ++ ((List.replicate n (beBytes 2 0)).flatten ++
        rest) := by
      rw [h, List.replicate_succ, List.flatten_cons, List.append_assoc]
    have hlen := congrArg List.length h'
    simp only [List.length_drop, List.length_append, length_beBytes] at hlen
    -- the next event is its length `0`, and the rest follows two bytes further
    have hnext : data.drop (offset + 2) = (List.replicate n (beBytes 2 0)).flatten ++ rest := by
      rw [← List.drop_drop, h', List.drop_left' (length_beBytes 2 0)]
    have htake : (data.drop offset).take 2 = beBytes 2 0 := by
      rw [h', List.take_left' (length_beBytes 2 0)]
    rw [readEvents, if_neg (by omega), htake, beNat_beBytes, Nat.zero_mod, Nat.add_zero,
      if_neg (by omega), readEvents_replicate data rest n (offset + 2) hnext]
    rw [List.replicate_succ, show offset + 2 * (n + 1) = offset + 2 + 2 * n by omega]
    rfl

/-- All events are the one empty event. -/
lemma Event.eq_replicate (l : List Event) : l = List.replicate l.length ⟨⟩ := by
  induction l with
  | nil => rfl
  | cons e l ih => rw [List.length_cons, List.replicate_succ, ← ih]

/-- **A result reads back but for its gas.** `UnmarshalBinary` of the bytes `MarshalBinary`
writes sets the code, the log and the events that were written, when the log's length fits its
`uint32`, and leaves the receiver's gas. -/
theorem readBack_keeps_all_but_gas {tr : TxResult} {bytes : Bytes}
    (h : tr.marshalBinary = .ok bytes) (hlog : tr.log.length < 2 ^ 32) (tr₀ : TxResult) :
    tr₀.unmarshalBinary bytes = .ok { tr with gas := tr₀.gas } := by
  obtain ⟨hn, rfl⟩ := TxResult.marshalBinary_eq_ok h
  rw [TxResult.encoding]
  set c := tr.code.toNat
  set L := tr.log.length
  set n := tr.events.length
  set evs := (List.replicate n (beBytes 2 0)).flatten
  have hc : c < 2 ^ 32 := tr.code.toNat_lt
  have hevs : evs.length = 2 * n := by simp [evs, Nat.mul_comm]
  -- the bytes before each field, the field, and the bytes after it
  have h₁ : beBytes 2 txResultsVer ++ beBytes 4 c ++ beBytes 4 L ++ tr.log ++ beBytes 2 n ++ evs =
      beBytes 2 0 ++ beBytes 4 c ++ (beBytes 4 L ++ tr.log ++ beBytes 2 n ++ evs) := by
    simp [txResultsVer]
  have h₂ : beBytes 2 0 ++ beBytes 4 c ++ (beBytes 4 L ++ tr.log ++ beBytes 2 n ++ evs) =
      (beBytes 2 0 ++ beBytes 4 c) ++ beBytes 4 L ++ (tr.log ++ beBytes 2 n ++ evs) := by
    simp
  have h₃ : beBytes 2 0 ++ beBytes 4 c ++ (beBytes 4 L ++ tr.log ++ beBytes 2 n ++ evs) =
      (beBytes 2 0 ++ beBytes 4 c ++ beBytes 4 L) ++ tr.log ++ (beBytes 2 n ++ evs) := by
    simp
  have h₄ : beBytes 2 0 ++ beBytes 4 c ++ (beBytes 4 L ++ tr.log ++ beBytes 2 n ++ evs) =
      (beBytes 2 0 ++ beBytes 4 c ++ beBytes 4 L ++ tr.log) ++ beBytes 2 n ++ evs := by
    simp
  rw [h₁]
  set data := beBytes 2 0 ++ beBytes 4 c ++ (beBytes 4 L ++ tr.log ++ beBytes 2 n ++ evs)
  have hlen : data.length = 10 + L + 2 + 2 * n := by
    simp only [data, List.length_append, length_beBytes, hevs]
    omega
  have hver : data.take 2 = beBytes 2 0 := by
    simp only [data, List.append_assoc]
    exact List.take_left' (length_beBytes 2 0)
  have hcode : (data.drop 2).take 4 = beBytes 4 c := by
    have := take_drop_of_append (beBytes 2 0) (beBytes 4 c)
      (beBytes 4 L ++ tr.log ++ beBytes 2 n ++ evs)
    rwa [length_beBytes, length_beBytes] at this
  have hL : (data.drop 6).take 4 = beBytes 4 L := by
    have := take_drop_of_append (beBytes 2 0 ++ beBytes 4 c) (beBytes 4 L)
      (tr.log ++ beBytes 2 n ++ evs)
    rwa [← h₂, List.length_append, length_beBytes, length_beBytes, length_beBytes] at this
  have hlogF : (data.drop 10).take L = tr.log := by
    have := take_drop_of_append (beBytes 2 0 ++ beBytes 4 c ++ beBytes 4 L) tr.log
      (beBytes 2 n ++ evs)
    rwa [← h₃, List.length_append, List.length_append, length_beBytes, length_beBytes,
      length_beBytes] at this
  have hnF : (data.drop (10 + L)).take 2 = beBytes 2 n := by
    have := take_drop_of_append (beBytes 2 0 ++ beBytes 4 c ++ beBytes 4 L ++ tr.log)
      (beBytes 2 n) evs
    rwa [← h₄, List.length_append, List.length_append, List.length_append, length_beBytes,
      length_beBytes, length_beBytes, length_beBytes] at this
  have hevents : readEvents data n (10 + L + 2) = .ok (List.replicate n ⟨⟩, 10 + L + 2 + 2 * n) := by
    refine readEvents_replicate data [] n _ ?_
    rw [List.append_nil, h₄, List.drop_left' (by simp; omega)]
  rw [TxResult.unmarshalBinary, if_neg (by omega), hver, beNat_beBytes, Nat.zero_mod]
  simp only [txResultsVer, ne_eq, not_true_eq_false, if_false, hcode, hL, beNat_beBytes,
    Nat.mod_eq_of_lt (show c < 256 ^ 4 by simpa using hc),
    Nat.mod_eq_of_lt (show L < 256 ^ 4 by simpa using hlog), hlogF, hnF,
    Nat.mod_eq_of_lt (show n < 256 ^ 2 by simp; omega), hevents]
  rw [if_neg (by omega), if_neg (by omega)]
  conv_rhs => rw [Event.eq_replicate tr.events]
  simp only [c, UInt32.ofNat_toNat]
  rfl

/-- Read into a zero result, as the block store reads, a result comes back without its gas. -/
lemma TxResult.zero_unmarshalBinary {tr : TxResult} {bytes : Bytes}
    (h : tr.marshalBinary = .ok bytes) (hlog : tr.log.length < 2 ^ 32) :
    TxResult.zero.unmarshalBinary bytes = .ok tr.withoutGas :=
  readBack_keeps_all_but_gas h hlog _

end KwilDb.Types
