import KwilDb.Interpreter.Values

/-!
# Variables, arrays and assignment in action bodies

The part of the planner (`node/engine/interpreter/planner.go`) and of the execution context
(`context.go`) that arrays go through: variables and their scope, literals, `ARRAY[...]`,
`arr[i]` and `arr[f:t]` as expressions, and the assignment statement with a variable, an
element or a slice on its left.

A scalar is held by value. An array value is a Go pointer to an object, here an index into
the heap of the execution context: reading a variable returns the pointer, assigning stores
it, and `Set` changes the object in place.

* `arr[k]` reads `Get(int32(k))`: the 64-bit index is cut to 32 bits before any check
  (`index_read_eq_get`), and outside the array the read fails (`array_index_read_diverges`).
* Assignments to elements and slices change only the heap (`vars_of_assign_element`), so two
  variables that share a pointer keep reading the same array (`array_assignment_aliases`).
-/

namespace KwilDb.Interpreter

open KwilDb.Core (DataType)
open KwilDb.Lib

/-- `engine.ErrUnknownVariable` and `engine.ErrInvalidVariable`. -/
def errUnknownVariable : String := "unknown variable"
def errInvalidVariable : String := "invalid variable name"

/-- What a variable or an expression holds: a scalar, or a pointer to an array object. -/
inductive Slot (D : Type) where
  | scalar (s : Scalar D)
  | ref (r : ℕ)
deriving DecidableEq, Repr

/-- An array object: its value and the capacity of its slice. -/
structure Cell (D : Type) where
  val : ArrayValue D
  cap : ℕ
deriving DecidableEq, Repr

/-- The `executionContext` of an action body: the variables of its scope, the array objects
they point to, and the system variables (`@caller`, `@height`, ...) of the engine context. -/
structure Exec (D : Type) where
  vars : GoMap String (Slot D)
  heap : List (Cell D)
  system : String → Except String (Scalar D)

variable {D : Type}

namespace Exec

/-- The value a slot holds: the scalar, or the array its pointer points to. -/
def deref (s : Exec D) : Slot D → Except String (Value D)
  | .scalar v => .ok (.scalar v)
  | .ref r =>
    match s.heap[r]? with
    | some c => .ok (.array c.val)
    | none => .error "nil pointer dereference"

/-- The value of a variable. -/
def read (s : Exec D) (name : String) : Option (Value D) :=
  (s.vars.lookup name).bind fun v => (s.deref v).toOption

/-- A new array object. -/
def alloc (s : Exec D) (a : ArrayValue D) (cap : ℕ) : Slot D × Exec D :=
  (.ref s.heap.length, { s with heap := s.heap ++ [⟨a, cap⟩] })

/-- A value that an expression made: a scalar as it is, an array in a new object with a nil
slice. -/
def hold (s : Exec D) : Value D → Slot D × Exec D
  | .scalar v => (.scalar v, s)
  | .array a => s.alloc a 0

/-- The array object `r` after a `Set`. -/
def setCell (s : Exec D) (r : ℕ) (c : Cell D) : Exec D := { s with heap := s.heap.set r c }

/-- `getVariable`, with its `ErrUnknownVariable` case apart: `none` for a `$` name that is not
in scope. -/
def findVariable (s : Exec D) (name : String) : Except String (Option (Slot D)) :=
  match name.toList with
  | [] => .error (errInvalidVariable ++ ": variable name is empty")
  | '$' :: _ => .ok (s.vars.lookup name)
  | '@' :: rest => (s.system (String.ofList rest)).map fun v => some (.scalar v)
  | _ => .error (errInvalidVariable ++ ": " ++ name)

/-- `getVariable`. -/
def getVariable (s : Exec D) (name : String) : Except String (Slot D) :=
  (s.findVariable name).bind fun
    | some v => .ok v
    | none => .error (errUnknownVariable ++ ": " ++ name)

/-- `allocateVariable`. -/
def allocateVariable (s : Exec D) (name : String) (v : Slot D) : Except String (Exec D) :=
  if name ∈ s.vars then .error ("variable \"" ++ name ++ "\" already exists")
  else .ok { s with vars := s.vars.insert name v }

/-- `setVariable`: a variable not in scope is allocated; a null makes a new null of the
variable's type; otherwise the types must match, and the variable takes the value as it is. -/
def setVariable (s : Exec D) (name : String) (v : Slot D) : Except String (Exec D) :=
  if name.toList.head? = some '@' then
    .error (errInvalidVariable ++ ": cannot set system variable " ++ name)
  else
    match s.vars.lookup name with
    | none => s.allocateVariable name v
    | some old =>
      (s.deref old).bind fun oldVal => (s.deref v).bind fun val =>
        if val.isNull then
          (makeNull oldVal.type).map fun nv =>
            let (slot, s) := s.hold nv
            { s with vars := s.vars.replace name slot }
        else if !oldVal.type.equalsStrict val.type then
          .error (errType ++ ": cannot assign variable " ++ name ++ " of type " ++
            val.type.string ++ " to existing variable of type " ++ oldVal.type.string)
        else .ok { s with vars := s.vars.replace name v }

end Exec

/-! ### Expressions -/

/-- The expressions of an action body that this model covers. -/
inductive Expr (D : Type) where
  /-- A literal, as `newValue` makes it. -/
  | literal (v : Scalar D)
  | var (name : String)
  /-- `ARRAY[...]`, with no type cast. -/
  | makeArray (vals : List (Expr D))
  | index (arr idx : Expr D)
  | slice (arr : Expr D) (fromIdx toIdx : Option (Expr D))

/-- The checks of `VisitExpressionArrayAccess` on the value of its array: a null reads as the
null of the element type (an error if it has no type), and what is not an array is a type
error. Otherwise the access goes on with the array. -/
def accessArray (v : Value D) : Except String (Value D ⊕ ArrayValue D) :=
  if v.isNull then
    if v.type.equalsStrict nullType then
      .error (errInvalidNull ++ ": cannot access array element of unknown type")
    else (makeNull { v.type with isArray := false }).map .inl
  else
    match v with
    | .array a => .ok (.inr a)
    | .scalar x => .error (errType ++ ": expected array, got " ++ x.goType)

/-- `arr[index]` once both are evaluated: a null index reads the null of the element type, and
an integer index `k` reads `Get(int32(k))`. -/
def readIndex (a : ArrayValue D) (index : Value D) : Except String (Value D) :=
  if index.isNull then makeNull { a.type with isArray := false }
  else
    match index with
    | .scalar (.int8 (some k)) => (a.get k.toInt32).map .scalar
    | _ => .error ("array index must be integer, got " ++ index.type.string)

/-- A bound of `arr[f:t]` once evaluated: `none` for a null, which makes the read a null array,
and `int32(k)` for an integer `k`. -/
def sliceBound (v : Value D) : Except String (Option Int32) :=
  if v.isNull then .ok none
  else
    match v with
    | .scalar (.int8 (some k)) => .ok (some k.toInt32)
    | _ => .error ("array index must be integer, got " ++ v.type.string)

/-- `arr[start:stop]` once the bounds are known: empty when `start > stop`; otherwise the bounds
are clamped to `1..Len` and the elements set one by one into the zero array of the type. The
capacity of the slice built comes with it. -/
def readSlice (ext : Externals D) (a : ArrayValue D) (start stop : Int32) :
    Except String (Value D × ℕ) :=
  if start > stop then (newZeroValue ext a.type).map fun z => (z, 0)
  else
    let start := if start < 1 then 1 else start
    let stop := if stop > a.len then a.len else stop
    match newZeroValue ext a.type with
    | .error e => .error e
    | .ok (.scalar z) => .error (errType ++ ": expected array, got " ++ z.goType)
    | .ok (.array z) =>
      let step (acc : ArrayValue D × ℕ) (k : ℕ) : Except String (ArrayValue D × ℕ) :=
        (a.get (start + Int32.ofNat k)).bind fun v => acc.1.set ext acc.2 (Int32.ofNat (k + 1)) v
      ((List.range (stop.toInt - start.toInt + 1).toNat).foldlM step (z, 0)).map
        fun r => (.array r.1, r.2)

variable (ext : Externals D)

mutual

/-- The `exprFunc` of an expression: its value, and the heap with the arrays it made. -/
def eval : Expr D → Exec D → Except String (Slot D × Exec D)
  | .literal v, s => .ok (.scalar v, s)
  | .var name, s => (s.getVariable name).map fun v => (v, s)
  | .makeArray vals, s =>
    (evalScalars vals s).bind fun (vs, s) =>
      (makeArray ext vs none).map fun (a, cap) => s.alloc a cap
  | .index arr idx, s =>
    (eval arr s).bind fun (av, s) => (s.deref av).bind fun v => (accessArray v).bind fun
      | .inl early => .ok (s.hold early)
      | .inr a =>
        (eval idx s).bind fun (iv, s) => (s.deref iv).bind fun index =>
          (readIndex a index).map s.hold
  | .slice arr f t, s =>
    (eval arr s).bind fun (av, s) => (s.deref av).bind fun v => (accessArray v).bind fun
      | .inl early => .ok (s.hold early)
      | .inr a =>
        (evalBound 1 f s).bind fun
          | (none, s) => (makeNull a.type).map s.hold
          | (some start, s) =>
            (evalBound a.len t s).bind fun
              | (none, s) => (makeNull a.type).map s.hold
              | (some stop, s) =>
                (readSlice ext a start stop).map fun
                  | (.array r, cap) => s.alloc r cap
                  | (.scalar x, _) => (.scalar x, s)

/-- The values of `ARRAY[...]`, each of which must be a scalar. -/
def evalScalars : List (Expr D) → Exec D → Except String (List (Scalar D) × Exec D)
  | [], s => .ok ([], s)
  | e :: es, s =>
    (eval e s).bind fun (v, s) =>
      match v with
      | .scalar x => (evalScalars es s).map fun (xs, s) => (x :: xs, s)
      | .ref r =>
        .error (errType ++ ": expected scalar value, got " ++
          ((s.heap[r]?).map fun c => c.val.goType).getD "<nil>")

/-- A bound of a slice read, `d` when there is none: `none` for a null bound, which makes the
read a null array. -/
def evalBound (d : Int32) : Option (Expr D) → Exec D → Except String (Option Int32 × Exec D)
  | none, s => .ok (some d, s)
  | some e, s =>
    (eval e s).bind fun (v, s) => (s.deref v).bind fun v =>
      (sliceBound v).map fun b => (b, s)

end

/-! ### What an expression changes -/

/-- What evaluating an expression leaves of the context: the same variables and system
variables, and the heap with new objects after the old ones. -/
structure Exec.Extends (s s' : Exec D) : Prop where
  vars : s'.vars = s.vars
  system : s'.system = s.system
  heap : s.heap.IsPrefix s'.heap

namespace Exec

lemma Extends.refl (s : Exec D) : s.Extends s := ⟨rfl, rfl, List.prefix_refl _⟩

lemma Extends.trans {s₁ s₂ s₃ : Exec D} (h₁ : s₁.Extends s₂) (h₂ : s₂.Extends s₃) :
    s₁.Extends s₃ :=
  ⟨h₂.vars.trans h₁.vars, h₂.system.trans h₁.system, h₁.heap.trans h₂.heap⟩

lemma extends_alloc (s : Exec D) (a : ArrayValue D) (cap : ℕ) : s.Extends (s.alloc a cap).2 :=
  ⟨rfl, rfl, List.prefix_append _ _⟩

lemma extends_hold (s : Exec D) (v : Value D) : s.Extends (s.hold v).2 := by
  cases v with
  | scalar x => exact .refl s
  | array a => exact s.extends_alloc a 0

end Exec

mutual

/-- **Expressions only allocate**: evaluating one keeps every variable and every array object
there was. -/
theorem eval_extends : ∀ (e : Expr D) (s : Exec D) {r : Slot D × Exec D},
    eval ext e s = .ok r → s.Extends r.2
  | .literal v, s, r, h => by
    cases h
    exact .refl s
  | .var name, s, r, h => by
    simp only [eval, exceptMap_eq_ok] at h
    obtain ⟨v, -, rfl⟩ := h
    exact .refl s
  | .makeArray vals, s, r, h => by
    simp only [eval, exceptBind_eq_ok, exceptMap_eq_ok] at h
    obtain ⟨⟨vs, s₁⟩, h₁, ⟨a, cap⟩, -, rfl⟩ := h
    exact (evalScalars_extends vals s h₁).trans (s₁.extends_alloc a cap)
  | .index arr idx, s, r, h => by
    simp only [eval, exceptBind_eq_ok] at h
    obtain ⟨⟨av, s₁⟩, h₁, v, -, acc, -, h⟩ := h
    have e₁ := eval_extends arr s h₁
    cases acc with
    | inl early =>
      cases h
      exact e₁.trans (s₁.extends_hold early)
    | inr a =>
      simp only [exceptBind_eq_ok, exceptMap_eq_ok] at h
      obtain ⟨⟨iv, s₂⟩, h₂, index, -, w, -, rfl⟩ := h
      exact e₁.trans ((eval_extends idx s₁ h₂).trans (s₂.extends_hold w))
  | .slice arr f t, s, r, h => by
    simp only [eval, exceptBind_eq_ok] at h
    obtain ⟨⟨av, s₁⟩, h₁, v, -, acc, -, h⟩ := h
    have e₁ := eval_extends arr s h₁
    cases acc with
    | inl early =>
      cases h
      exact e₁.trans (s₁.extends_hold early)
    | inr a =>
      simp only [exceptBind_eq_ok] at h
      obtain ⟨⟨start, s₂⟩, h₂, h⟩ := h
      have e₂ := e₁.trans (evalBound_extends 1 f s₁ h₂)
      cases start with
      | none =>
        simp only [exceptMap_eq_ok] at h
        obtain ⟨w, -, rfl⟩ := h
        exact e₂.trans (s₂.extends_hold w)
      | some start =>
        simp only [exceptBind_eq_ok] at h
        obtain ⟨⟨stop, s₃⟩, h₃, h⟩ := h
        have e₃ := e₂.trans (evalBound_extends a.len t s₂ h₃)
        cases stop with
        | none =>
          simp only [exceptMap_eq_ok] at h
          obtain ⟨w, -, rfl⟩ := h
          exact e₃.trans (s₃.extends_hold w)
        | some stop =>
          simp only [exceptMap_eq_ok] at h
          obtain ⟨⟨w, cap⟩, -, rfl⟩ := h
          cases w with
          | array w => exact e₃.trans (s₃.extends_alloc w cap)
          | scalar x => exact e₃

theorem evalScalars_extends : ∀ (es : List (Expr D)) (s : Exec D)
    {r : List (Scalar D) × Exec D}, evalScalars ext es s = .ok r → s.Extends r.2
  | [], s, r, h => by
    cases h
    exact .refl s
  | e :: es, s, r, h => by
    simp only [evalScalars, exceptBind_eq_ok] at h
    obtain ⟨⟨v, s₁⟩, h₁, h⟩ := h
    cases v with
    | scalar x =>
      simp only [exceptMap_eq_ok] at h
      obtain ⟨⟨xs, s₂⟩, h₂, rfl⟩ := h
      have e₂ := evalScalars_extends es s₁ h₂
      exact (eval_extends e s h₁).trans e₂
    | ref _ => cases h

theorem evalBound_extends : ∀ (d : Int32) (b : Option (Expr D)) (s : Exec D)
    {r : Option Int32 × Exec D}, evalBound ext d b s = .ok r → s.Extends r.2
  | d, none, s, r, h => by
    cases h
    exact .refl s
  | d, some e, s, r, h => by
    simp only [evalBound, exceptBind_eq_ok, exceptMap_eq_ok] at h
    obtain ⟨⟨v, s₁⟩, h₁, w, -, b, -, rfl⟩ := h
    exact eval_extends e s h₁

end

/-! ### Reading an element -/

lemma exists_toList_eq_dollar {name : String} (h : name.toList.head? = some '$') :
    ∃ rest, name.toList = '$' :: rest := by
  cases hl : name.toList with
  | nil => simp [hl] at h
  | cons c cs =>
    rw [hl, List.head?_cons, Option.some.injEq] at h
    exact ⟨cs, by rw [h]⟩

lemma Exec.getVariable_of_lookup {s : Exec D} {name : String} {v : Slot D}
    (hname : name.toList.head? = some '$') (hv : s.vars.lookup name = some v) :
    s.getVariable name = .ok v := by
  obtain ⟨rest, hrest⟩ := exists_toList_eq_dollar hname
  simp [getVariable, findVariable, hrest, hv]

/-- `$x[k]`, for an integer literal `k` and a variable holding an array that is not null, reads
`Get(int32(k))`. -/
theorem index_read_eq_get {s : Exec D} {name : String} {r : ℕ} {c : Cell D} (k : Int64)
    (hname : name.toList.head? = some '$') (hvar : s.vars.lookup name = some (.ref r))
    (hcell : s.heap[r]? = some c) (hnn : c.val.isNull = false) :
    eval ext (.index (.var name) (.literal (.int8 (some k)))) s =
      (c.val.get k.toInt32).map fun v => (.scalar v, s) := by
  have hacc : accessArray (.array c.val : Value D) = .ok (.inr c.val) := by
    simp [accessArray, Value.isNull, hnn]
  simp only [eval, Exec.getVariable_of_lookup hname hvar, Except.map, Except.bind, Exec.deref, hcell,
    hacc, readIndex, Value.isNull, Scalar.isNull, Option.isNone_some]
  cases c.val.get k.toInt32 <;> rfl

/-- **Reading `arr[k]`**: the index is cut to `int32(k)`; inside `1..Len` the read is the element
there, and outside it fails, for every array of a scalar type that is not null. -/
theorem array_index_read_diverges {s : Exec D} {name : String} {r : ℕ} {c : Cell D} (k : Int64)
    (hname : name.toList.head? = some '$') (hvar : s.vars.lookup name = some (.ref r))
    (hcell : s.heap[r]? = some c) (htyped : ∀ n, c.val ≠ .nulls n) (hnn : c.val.isNull = false) :
    (k.toInt32 < 1 ∨ c.val.len < k.toInt32 →
      eval ext (.index (.var name) (.literal (.int8 (some k)))) s =
        .error ("expected to create a null scalar value, got " ++ c.val.goType)) ∧
    (1 ≤ k.toInt32 → k.toInt32 ≤ c.val.len →
      eval ext (.index (.var name) (.literal (.int8 (some k)))) s =
        .ok (.scalar (c.val.elements.getD (k.toInt32.toInt - 1).toNat .null), s)) := by
  rw [index_read_eq_get ext k hname hvar hcell hnn]
  refine ⟨fun hout => ?_, fun h₁ h₂ => ?_⟩
  · rw [ArrayValue.get_out_of_range htyped hout]
    rfl
  · rw [ArrayValue.get_in_range h₁ h₂]
    rfl

theorem array_index_read_at_two_pow_32_plus_one :
    eval Externals.none (.index (.var "$a") (.literal (.int8 (some 4294967297))))
        ⟨(∅ : GoMap String (Slot Empty)).insert "$a" (.ref 0), [⟨.int8 (some [some 7]), 1⟩],
          fun _ => .error ""⟩ =
      .ok (.scalar (.int8 (some 7)),
        ⟨(∅ : GoMap String (Slot Empty)).insert "$a" (.ref 0), [⟨.int8 (some [some 7]), 1⟩],
          fun _ => .error ""⟩) :=
  (array_index_read_diverges Externals.none (c := ⟨.int8 (some [some 7]), 1⟩) 4294967297 rfl rfl
    rfl (by simp) rfl).2 (by decide) (by decide)

/-! ### Assignment -/

namespace Exec

/-- The `%T` of what a slot holds. -/
def goType (s : Exec D) : Slot D → String
  | .scalar v => v.goType
  | .ref r => ((s.heap[r]?).map fun c => c.val.goType).getD "<nil>"

/-- `arr.Len()` of the array object `r`. -/
def len (s : Exec D) (r : ℕ) : Except String Int32 :=
  match s.heap[r]? with
  | some c => .ok c.val.len
  | none => .error "nil pointer dereference"

/-- `arr.Set(i, v)` on the array object `r`, in place. -/
def setArray (s : Exec D) (r : ℕ) (i : Int32) (v : Scalar D) : Except String (Exec D) :=
  match s.heap[r]? with
  | some c => (c.val.set ext c.cap i v).map fun (a, cap) => s.setCell r ⟨a, cap⟩
  | none => .error "nil pointer dereference"

/-- The check of a typed assignment `$x type := ...`: a variable not in scope is first allocated
as the null of the type, and one in scope must already have the type. -/
def declare (s : Exec D) (name : String) : Option DataType → Except String (Exec D)
  | none => .ok s
  | some t =>
    (s.findVariable name).bind fun
      | none => (makeNull t).bind fun nv => let (slot, s) := s.hold nv; s.allocateVariable name slot
      | some v => (s.deref v).bind fun v =>
        if !v.type.equalsStrict t then
          .error (errType ++ ": cannot assign new type \"" ++ t.string ++ "\" to variable \"" ++
            name ++ "\" of type \"" ++ v.type.string ++ "\"")
        else .ok s

end Exec

/-- The left side of an assignment: a variable, an element or a slice. -/
inductive Target (D : Type) where
  | var (name : String)
  | index (arr idx : Expr D)
  | slice (arr : Expr D) (fromIdx toIdx : Option (Expr D))

/-- `evaluateSliceIdx` of a slice assignment: the bound, `d` when there is none. -/
def assignBound (d : Int32) : Option (Expr D) → Exec D → Except String (Int32 × Exec D)
  | none, s => .ok (d, s)
  | some e, s =>
    (eval ext e s).bind fun (v, s) => (s.deref v).bind fun v =>
      if v.isNull then .error (errInvalidNull ++ ": slice index cannot be null when assigning to array")
      else
        match v with
        | .scalar (.int8 (some k)) => .ok (k.toInt32, s)
        | _ => .error ("array index must be integer, got " ++ v.type.string)

/-- The copy loop of a slice assignment: `arr[from + k] := newArr[1 + k]` for `k < n`, each
`Get` reading the object `src` as the earlier steps left it. -/
def copySlice (dst src : ℕ) (fromIdx : Int32) (n : ℕ) (s : Exec D) : Except String (Exec D) :=
  (List.range n).foldlM (fun s k =>
    match s.heap[src]? with
    | some c => (c.val.get (Int32.ofNat (k + 1))).bind fun v =>
        s.setArray ext dst (fromIdx + Int32.ofNat k) v
    | none => .error "nil pointer dereference") s

/-- The error of an assignment with a type to an element or a slice. -/
def typedElementErr (t : DataType) : String :=
  errType ++ ": cannot assign to array element with type assignment \"" ++ t.string ++ "\""

/-- The `stmtFunc` of `VisitActionStmtAssignment`. The right side is evaluated first; a slice
assignment evaluates it again once the bounds are checked, and copies from that value element
by element. -/
def assign (target : Target D) (type : Option DataType) (value : Expr D) (s : Exec D) :
    Except String (Exec D) :=
  (eval ext value s).bind fun (val, s) =>
    match target, type with
    | .var name, type => (s.declare name type).bind fun s => s.setVariable name val
    | .index _ _, some t | .slice _ _ _, some t => .error (typedElementErr t)
    | .index arr idx, none =>
      (eval ext arr s).bind fun (av, s) =>
        match av, val with
        | .scalar x, _ => .error (errType ++ ": expected array, got " ++ x.goType)
        | .ref _, .ref _ => .error (errType ++ ": expected scalar value, got " ++ s.goType val)
        | .ref r, .scalar x =>
          (eval ext idx s).bind fun (iv, s) => (s.deref iv).bind fun index =>
            if index.isNull then
              .error (errInvalidNull ++ ": array index cannot be null when assigning to array")
            else
              match index with
              | .scalar (.int8 (some k)) => s.setArray ext r k.toInt32 x
              | _ => .error ("array index must be integer, got " ++ index.type.string)
    | .slice arr f t, none =>
      (eval ext arr s).bind fun (av, s) =>
        match av with
        | .scalar x => .error (errType ++ ": expected array, got " ++ x.goType)
        | .ref r =>
          (assignBound ext 1 f s).bind fun (fromIdx, s) => (s.len r).bind fun len =>
            (assignBound ext len t s).bind fun (toIdx, s) =>
              if fromIdx < 1 then
                .error (errIndexOutOfBounds ++ ": slice from index must be greater than 0, got " ++
                  toString fromIdx.toInt)
              else if toIdx < fromIdx then
                .error (errIndexOutOfBounds ++
                  ": slice to index must be greater than or equal to from index, got " ++
                  toString toIdx.toInt)
              else
                (eval ext value s).bind fun (nv, s) =>
                  match nv with
                  | .scalar x => .error (errType ++ ": expected array, got " ++ x.goType)
                  | .ref src =>
                    (s.len src).bind fun newLen =>
                      let receiveLen := toIdx - fromIdx + 1
                      if receiveLen > newLen then
                        .error (errArrayTooSmall ++ ": expected slice to have length " ++
                          toString receiveLen.toInt ++ ", got " ++ toString newLen.toInt)
                      else copySlice ext r src fromIdx receiveLen.toInt.toNat s

/-! ### What an assignment changes -/

lemma Exec.vars_setArray {s s' : Exec D} {r : ℕ} {i : Int32} {v : Scalar D}
    (h : s.setArray ext r i v = .ok s') : s'.vars = s.vars := by
  unfold setArray at h
  split at h
  · obtain ⟨_, -, rfl⟩ := exceptMap_eq_ok.mp h
    rfl
  · cases h

lemma vars_copySlice {dst src : ℕ} {fromIdx : Int32} {n : ℕ} {s s' : Exec D}
    (h : copySlice ext dst src fromIdx n s = .ok s') : s'.vars = s.vars := by
  -- every turn of the loop is one `Set`
  refine foldlM_invariant (fun _ (s' : Exec D) => s'.vars = s.vars) (fun _ s₁ k s₂ h₁ hk => ?_)
    (List.range n) [] s s' rfl h
  split at hk
  · obtain ⟨v, -, hset⟩ := exceptBind_eq_ok.mp hk
    exact (Exec.vars_setArray ext hset).trans h₁
  · cases hk

lemma vars_assignBound {d : Int32} {b : Option (Expr D)} {s : Exec D} {r : Int32 × Exec D}
    (h : assignBound ext d b s = .ok r) : r.2.vars = s.vars := by
  cases b with
  | none =>
    cases h
    rfl
  | some e =>
    obtain ⟨⟨v, s₁⟩, h₁, h⟩ := exceptBind_eq_ok.mp h
    obtain ⟨w, -, h⟩ := exceptBind_eq_ok.mp h
    have e₁ := (eval_extends ext e s h₁).vars
    by_cases hnull : w.isNull
    · rw [if_pos hnull] at h
      cases h
    · rw [if_neg hnull] at h
      split at h
      · cases h
        exact e₁
      · cases h

/-- **Element and slice assignments change only the heap**: no variable is bound anew. -/
theorem vars_of_assign_element {target : Target D} (ht : ∀ name, target ≠ .var name)
    {type : Option DataType} {value : Expr D} {s s' : Exec D}
    (h : assign ext target type value s = .ok s') : s'.vars = s.vars := by
  obtain ⟨⟨val, s₁⟩, h₁, h⟩ := exceptBind_eq_ok.mp h
  have e₁ := (eval_extends ext value s h₁).vars
  cases target with
  | var name => exact absurd rfl (ht name)
  | index arr idx =>
    cases type with
    | some t => cases h
    | none =>
      obtain ⟨⟨av, s₂⟩, h₂, h⟩ := exceptBind_eq_ok.mp h
      have e₂ := (eval_extends ext arr s₁ h₂).vars
      -- only an array with a scalar to write gets as far as `Set`
      rcases av with x | r <;> rcases val with y | rv
      · cases h
      · cases h
      · obtain ⟨⟨iv, s₃⟩, h₃, h⟩ := exceptBind_eq_ok.mp h
        have e₃ := (eval_extends ext idx s₂ h₃).vars
        obtain ⟨index, -, h⟩ := exceptBind_eq_ok.mp h
        by_cases hnull : index.isNull
        · rw [if_pos hnull] at h
          cases h
        · rw [if_neg hnull] at h
          split at h
          · exact (Exec.vars_setArray ext h).trans (e₃.trans (e₂.trans e₁))
          · cases h
      · cases h
  | slice arr f t =>
    cases type with
    | some t => cases h
    | none =>
      obtain ⟨⟨av, s₂⟩, h₂, h⟩ := exceptBind_eq_ok.mp h
      have e₂ := (eval_extends ext arr s₁ h₂).vars
      rcases av with x | r
      · cases h
      · obtain ⟨⟨fromIdx, s₃⟩, h₃, h⟩ := exceptBind_eq_ok.mp h
        obtain ⟨len, -, h⟩ := exceptBind_eq_ok.mp h
        obtain ⟨⟨toIdx, s₄⟩, h₄, h⟩ := exceptBind_eq_ok.mp h
        have e₄ := (vars_assignBound ext h₄).trans ((vars_assignBound ext h₃).trans (e₂.trans e₁))
        dsimp only at h
        by_cases hfrom : fromIdx < 1
        · rw [if_pos hfrom] at h
          cases h
        rw [if_neg hfrom] at h
        by_cases hto : toIdx < fromIdx
        · rw [if_pos hto] at h
          cases h
        rw [if_neg hto] at h
        -- the right side is evaluated again, then copied element by element
        obtain ⟨⟨nv, s₅⟩, h₅, h⟩ := exceptBind_eq_ok.mp h
        have e₅ := (eval_extends ext value s₄ h₅).vars
        rcases nv with y | src
        · cases h
        · obtain ⟨newLen, -, h⟩ := exceptBind_eq_ok.mp h
          by_cases hsmall : toIdx - fromIdx + 1 > newLen
          · rw [if_pos hsmall] at h
            cases h
          · rw [if_neg hsmall] at h
            exact (vars_copySlice ext h).trans (e₅.trans e₄)

lemma Exec.vars_of_setVariable_new {s s' : Exec D} {name : String} {v : Slot D}
    (hnone : s.vars.lookup name = none) (h : s.setVariable name v = .ok s') :
    s'.vars = s.vars.insert name v := by
  unfold setVariable at h
  by_cases hat : name.toList.head? = some '@'
  · rw [if_pos hat] at h
    cases h
  rw [if_neg hat, hnone] at h
  unfold allocateVariable at h
  rw [if_neg (AList.lookup_eq_none.mp hnone)] at h
  cases h
  rfl

lemma Exec.lookup_of_getVariable {s : Exec D} {name : String} {v : Slot D}
    (hname : name.toList.head? = some '$') (h : s.getVariable name = .ok v) :
    s.vars.lookup name = some v := by
  obtain ⟨rest, hrest⟩ := exists_toList_eq_dollar hname
  simp only [getVariable, findVariable, hrest, exceptBind_eq_ok, Except.ok.injEq] at h
  obtain ⟨o, ho, h⟩ := h
  cases o with
  | some w =>
    cases h
    exact ho
  | none => cases h

/-- After `$b := $a`, with `$b` not yet in scope, both variables hold the same slot: for an
array, the same pointer. -/
lemma lookup_of_assign_var {s s' : Exec D} {a b : String} (ha : a.toList.head? = some '$')
    (hnew : s.vars.lookup b = none) (h : assign ext (.var b) none (.var a) s = .ok s') :
    s'.vars.lookup b = s'.vars.lookup a := by
  obtain ⟨⟨val, s₁⟩, h₁, h⟩ := exceptBind_eq_ok.mp h
  -- reading `$a` returns its slot and leaves the context as it was
  obtain ⟨v, hv, hvs⟩ := exceptMap_eq_ok.mp h₁
  cases hvs
  have hlook := Exec.lookup_of_getVariable ha hv
  have hab : b ≠ a := by
    rintro rfl
    rw [hnew] at hlook
    cases hlook
  have hvars := Exec.vars_of_setVariable_new hnew h
  rw [hvars, AList.lookup_insert, AList.lookup_insert_ne (Ne.symm hab), hlook]

/-- **Arrays are shared, not copied**: after `$b := $a`, with `$b` new, every element or slice
assignment that succeeds leaves `$a` and `$b` reading the same value, whichever of the two it
went through. -/
theorem array_assignment_aliases {s s₁ s₂ : Exec D} {a b : String} {target : Target D}
    {value : Expr D} (ha : a.toList.head? = some '$') (hnew : s.vars.lookup b = none)
    (h₁ : assign ext (.var b) none (.var a) s = .ok s₁) (ht : ∀ name, target ≠ .var name)
    (h₂ : assign ext target none value s₁ = .ok s₂) :
    s₂.read b = s₂.read a := by
  have hvars := vars_of_assign_element ext ht h₂
  simp only [Exec.read, hvars, lookup_of_assign_var ext ha hnew h₁]

theorem array_assignment_aliases_at_one :
    (⟨((∅ : GoMap String (Slot Empty)).insert "$a" (.ref 0)).insert "$b" (.ref 0),
        [⟨.int8 (some [some 5]), 1⟩], fun _ => .error ""⟩ : Exec Empty).read "$a" =
      some (.array (.int8 (some [some 5]))) ∧
    (⟨((∅ : GoMap String (Slot Empty)).insert "$a" (.ref 0)).insert "$b" (.ref 0),
        [⟨.int8 (some [some 5]), 1⟩], fun _ => .error ""⟩ : Exec Empty).read "$b" =
    (⟨((∅ : GoMap String (Slot Empty)).insert "$a" (.ref 0)).insert "$b" (.ref 0),
        [⟨.int8 (some [some 5]), 1⟩], fun _ => .error ""⟩ : Exec Empty).read "$a" :=
  ⟨rfl, @array_assignment_aliases Empty Externals.none
    ⟨(∅ : GoMap String (Slot Empty)).insert "$a" (.ref 0), [⟨.int8 (some [some 1]), 1⟩],
      fun _ => .error ""⟩
    ⟨((∅ : GoMap String (Slot Empty)).insert "$a" (.ref 0)).insert "$b" (.ref 0),
      [⟨.int8 (some [some 1]), 1⟩], fun _ => .error ""⟩
    ⟨((∅ : GoMap String (Slot Empty)).insert "$a" (.ref 0)).insert "$b" (.ref 0),
      [⟨.int8 (some [some 5]), 1⟩], fun _ => .error ""⟩
    "$a" "$b" (.index (.var "$b") (.literal (.int8 (some 1)))) (.literal (.int8 (some 5)))
    rfl rfl rfl (fun _ => by simp) rfl⟩

/-- One assignment of an action body. -/
structure Assign (D : Type) where
  target : Target D
  type : Option DataType
  value : Expr D

/-- A body of assignments, run in order until one fails. -/
def run (body : List (Assign D)) (s : Exec D) : Except String (Exec D) :=
  body.foldlM (fun s a => assign ext a.target a.type a.value s) s

end KwilDb.Interpreter
