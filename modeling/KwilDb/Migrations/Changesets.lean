import KwilDb.Pg.Changeset

/-!
# Reading a migration's changesets back

The changes of each block of a migration are written as one stream of elements
(`StreamElement`): a type byte, the length of the element as a little-endian `uint32`, and the
element's `MarshalBinary`. `applyChangeset` reads the stored chunks of a height back as one
stream: five bytes of prefix, then as many bytes as the prefix announces, then the element's
`UnmarshalBinary`, until fewer than five bytes are left.

* A stream of relations, inserts, updates and block spends reads back element by element, in
  order (`applyChangeset_encode`).
* A delete stops it: wherever it stands, reading the stream fails at the delete with
  "unexpected end of data", since the entry's own decoder refuses every delete
  (`ChangesetEntry.unmarshal_delete`).

The elements are decoded and not applied: `ApplyChangesetEntry` and `ApplySpend` write to the
database and are not modelled, and the entry's relation is only looked up. The block spends
are read by a decoder given as a parameter. Every chunk of the height is taken to be stored, so
the reader reads from their concatenation.
-/

namespace KwilDb.Migrations

open KwilDb.Lib KwilDb.Core KwilDb.Pg

/-- `RelationType`, `ChangesetEntryType` and `BlockSpendsType`, the prefixes of the three
elements. -/
def relationType : UInt8 := 1
def changesetEntryType : UInt8 := 2
def blockSpendsType : UInt8 := 3

def streamElement (pfx : UInt8) (bts : Bytes) : Bytes := pfx :: (leBytes 4 bts.length ++ bts)

def errNoMoreChunksToRead : String := "no more chunks to read"

/-- `changesetReader.Read` over the bytes of the chunks not read yet: the bytes asked for, or
`ErrNoMoreChunksToRead` when fewer are left. -/
def readChunks (n : ℕ) (data : Bytes) : Except String (Bytes × Bytes) :=
  if n ≤ data.length then .ok (data.take n, data.drop n) else .error errNoMoreChunksToRead

/-- A changeset element as `applyChangeset` reads it. -/
inductive Element (σ : Type) where
  | relation (r : Relation)
  | entry (ce : ChangesetEntry)
  | spends (bs : σ)
deriving DecidableEq, Repr

section Loop

variable {σ : Type} (decodeSpends : Bytes → Except String σ)

/-- The `switch` of `applyChangeset` on the type of an element, up to where the element would be
applied: an entry's relation is looked up in those read before it. -/
def decodeElement (relations : List Relation) (csType : UInt8) (bts : Bytes) :
    Except Failure (Element σ) :=
  if csType = relationType then (Relation.unmarshalBinary bts).map .relation
  else if csType = changesetEntryType then do
    let ce ← ChangesetEntry.unmarshalBinary bts
    -- `relations[ce.RelationIdx]`
    if ce.relationIdx.toNat < relations.length then pure (.entry ce)
    else throw (.panic ("runtime error: index out of range [" ++ toString ce.relationIdx.toNat ++
      "] with length " ++ toString relations.length))
  else if csType = blockSpendsType then ((decodeSpends bts).mapError .error).map .spends
  else throw (.error "unknown changeset type")

/-- The relations known after an element. -/
def Element.relations (relations : List Relation) : Element σ → List Relation
  | .relation r => relations ++ [r]
  | _ => relations

/-- The loop of `applyChangeset`, with the elements it reads in order. Each turn reads at least
five bytes, so the length of the stream is fuel enough. -/
def applyChangesetLoop : ℕ → List Relation → Bytes → Except Failure (List (Element σ))
  | 0, _, _ => .ok []
  | fuel + 1, relations, data =>
    match readChunks 5 data with
    -- no more chunks: the loop ends and the transaction commits
    | .error _ => .ok []
    | .ok (pfx, data) =>
      -- `DecodeStreamPrefix`
      let csType := pfx.getD 0 0
      let csSize := leNat (pfx.drop 1)
      match readChunks csSize data with
      | .error e => .error (.error e)
      | .ok (bts, data) => do
        let el ← decodeElement decodeSpends relations csType bts
        let els ← applyChangesetLoop fuel (el.relations relations) data
        pure (el :: els)

/-- `applyChangeset` on the stored chunks of a height. -/
def applyChangeset (data : Bytes) : Except Failure (List (Element σ)) :=
  applyChangesetLoop decodeSpends (data.length + 1) [] data

/-! ### One element -/

/-- The first turn of the loop on an element reads exactly the element. -/
lemma applyChangesetLoop_streamElement {fuel : ℕ} {relations : List Relation} {t : UInt8}
    {bts : Bytes} (hlen : bts.length < 2 ^ 32) (more : Bytes) :
    applyChangesetLoop decodeSpends (fuel + 1) relations (streamElement t bts ++ more) = (do
      let el ← decodeElement decodeSpends relations t bts
      let els ← applyChangesetLoop decodeSpends fuel (el.relations relations) more
      pure (el :: els)) := by
  have hpfx : readChunks 5 (streamElement t bts ++ more) =
      .ok (t :: leBytes 4 bts.length, bts ++ more) := by
    simp [readChunks, streamElement]
  have hsize : leNat (leBytes 4 bts.length) = bts.length := by
    rw [leNat_leBytes, Nat.mod_eq_of_lt (by simpa using hlen)]
  have hbts : readChunks bts.length (bts ++ more) = .ok (bts, more) := by
    simp [readChunks]
  simp only [applyChangesetLoop, hpfx, List.getD_cons_zero, List.drop_succ_cons, List.drop_zero,
    hsize, hbts]

variable {decodeSpends}

lemma decodeElement_relation {relations : List Relation} {r : Relation} (hr : r.Fits) :
    decodeElement decodeSpends relations relationType r.marshalBinary = .ok (.relation r) := by
  simp [decodeElement, Relation.unmarshal_marshal hr, Except.map]

lemma decodeElement_entry {relations : List Relation} {ce : ChangesetEntry} (hce : ce.Fits)
    (hkind : ce.kind ≠ "delete") (hidx : ce.relationIdx.toNat < relations.length) :
    decodeElement decodeSpends relations changesetEntryType ce.marshalBinary = .ok (.entry ce) := by
  simp only [decodeElement, relationType, changesetEntryType, ChangesetEntry.unmarshal_marshal hce hkind]
  simp [hidx, bind, Except.bind, pure, Except.pure]

lemma decodeElement_delete {relations : List Relation} {ce : ChangesetEntry} (hce : ce.Fits)
    (hkind : ce.kind = "delete") :
    decodeElement decodeSpends relations changesetEntryType ce.marshalBinary =
      .error (.error "unexpected end of data") := by
  simp only [decodeElement, relationType, changesetEntryType, ChangesetEntry.unmarshal_delete hce hkind]
  rfl

lemma decodeElement_spends {relations : List Relation} {bts : Bytes} {bs : σ}
    (h : decodeSpends bts = .ok bs) :
    decodeElement decodeSpends relations blockSpendsType bts = .ok (.spends bs) := by
  simp [decodeElement, relationType, changesetEntryType, blockSpendsType, h, Except.map,
    Except.mapError]

/-! ### Streams -/

variable (decodeSpends) (encodeSpends : σ → Bytes)

/-- `StreamElement` of an element. -/
def Element.encode : Element σ → Bytes
  | .relation r => streamElement relationType r.marshalBinary
  | .entry ce => streamElement changesetEntryType ce.marshalBinary
  | .spends bs => streamElement blockSpendsType (encodeSpends bs)

/-- A stream of elements each of which reads back where it stands: relations that fit, entries
that fit, are not deletes and name a relation streamed before them, and block spends whose
bytes read back; each shorter than `2^32` bytes. -/
inductive Decodable : List Relation → List (Element σ) → Prop
  | nil {relations} : Decodable relations []
  | relation {relations r els} : r.Fits → r.marshalBinary.length < 2 ^ 32 →
      Decodable (relations ++ [r]) els → Decodable relations (.relation r :: els)
  | entry {relations ce els} : ce.Fits → ce.kind ≠ "delete" →
      ce.relationIdx.toNat < relations.length → ce.marshalBinary.length < 2 ^ 32 →
      Decodable relations els → Decodable relations (.entry ce :: els)
  | spends {relations bs els} : decodeSpends (encodeSpends bs) = .ok bs →
      (encodeSpends bs).length < 2 ^ 32 →
      Decodable relations els → Decodable relations (.spends bs :: els)

variable {decodeSpends encodeSpends}

lemma length_encode_pos (el : Element σ) : 5 ≤ (el.encode encodeSpends).length := by
  cases el <;> simp [Element.encode, streamElement]

/-- **The loop reads a decodable stream back**, element by element, and goes on with the
relations it has read. -/
theorem applyChangesetLoop_encode {relations : List Relation} {els : List (Element σ)}
    (h : Decodable decodeSpends encodeSpends relations els) (fuel : ℕ) (more : Bytes) :
    applyChangesetLoop decodeSpends (els.length + fuel) relations
        (els.flatMap (Element.encode encodeSpends) ++ more) =
      (applyChangesetLoop decodeSpends fuel (els.foldl (fun rs el => el.relations rs) relations)
        more).map (els ++ ·) := by
  induction h with
  | @nil relations =>
    simp only [List.length_nil, Nat.zero_add, List.flatMap_nil, List.nil_append, List.foldl_nil]
    cases applyChangesetLoop decodeSpends fuel relations more <;> rfl
  | @relation relations r els hr hlen _ ih =>
    rw [List.length_cons, Nat.add_right_comm, List.flatMap_cons, List.append_assoc,
      Element.encode, applyChangesetLoop_streamElement decodeSpends hlen, decodeElement_relation hr]
    simp only [bind, Except.bind, Element.relations, ih, List.foldl_cons]
    cases applyChangesetLoop decodeSpends fuel _ more <;> rfl
  | @entry relations ce els hce hkind hidx hlen _ ih =>
    rw [List.length_cons, Nat.add_right_comm, List.flatMap_cons, List.append_assoc,
      Element.encode, applyChangesetLoop_streamElement decodeSpends hlen, decodeElement_entry hce hkind hidx]
    simp only [bind, Except.bind, Element.relations, ih, List.foldl_cons]
    cases applyChangesetLoop decodeSpends fuel _ more <;> rfl
  | @spends relations bs els hbs hlen _ ih =>
    rw [List.length_cons, Nat.add_right_comm, List.flatMap_cons, List.append_assoc,
      Element.encode, applyChangesetLoop_streamElement decodeSpends hlen, decodeElement_spends hbs]
    simp only [bind, Except.bind, Element.relations, ih, List.foldl_cons]
    cases applyChangesetLoop decodeSpends fuel _ more <;> rfl

lemma applyChangesetLoop_nil (fuel : ℕ) (relations : List Relation) :
    applyChangesetLoop decodeSpends fuel relations [] = .ok [] := by
  cases fuel <;> rfl

lemma length_le_length_flatMap_encode (els : List (Element σ)) :
    els.length ≤ (els.flatMap (Element.encode encodeSpends)).length := by
  induction els with
  | nil => simp
  | cons el els ih =>
    have := @length_encode_pos σ encodeSpends el
    simp only [List.length_cons, List.flatMap_cons, List.length_append]
    omega

/-- The relation `public.users` with one `int8` column `id` is written and read back. -/
lemma usersRelation_fits :
    Relation.Fits ⟨"public", "users", some [⟨"id", some ⟨"int8", false, (0, 0)⟩⟩]⟩ := by
  have hcol : Column.Fits ⟨"id", some ⟨"int8", false, (0, 0)⟩⟩ :=
    ⟨by simp [IsGoString], by decide, ⟨_, rfl, by simp [IsGoString], by decide⟩⟩
  refine ⟨by simp [IsGoString], by decide, by simp [IsGoString], by decide, ?_⟩
  rintro cols ⟨⟩
  exact ⟨fun c hc => by rw [List.mem_singleton.mp hc]; exact hcol, by decide⟩

/-- A stream of relations, inserts, updates and block spends reads back as written. -/
theorem applyChangeset_encode {els : List (Element σ)}
    (h : Decodable decodeSpends encodeSpends [] els) :
    applyChangeset decodeSpends (els.flatMap (Element.encode encodeSpends)) = .ok els := by
  have hle := @length_le_length_flatMap_encode σ encodeSpends els
  have hfuel : (els.flatMap (Element.encode encodeSpends)).length + 1 =
      els.length + ((els.flatMap (Element.encode encodeSpends)).length + 1 - els.length) := by
    omega
  have hrun := applyChangesetLoop_encode h
    ((els.flatMap (Element.encode encodeSpends)).length + 1 - els.length) []
  rw [List.append_nil, ← hfuel, applyChangesetLoop_nil] at hrun
  rw [applyChangeset, hrun]
  simp [Except.map]

/-- A relation, an insert into it and the block's spends read back as written. -/
theorem applyChangeset_encode_insert :
    applyChangeset (fun _ => .ok ())
        ([Element.relation ⟨"public", "users", some [⟨"id", some ⟨"int8", false, (0, 0)⟩⟩]⟩,
          .entry ⟨0, [], [⟨2, [1]⟩]⟩, .spends ()].flatMap (Element.encode fun () => [])) =
      .ok [Element.relation ⟨"public", "users", some [⟨"id", some ⟨"int8", false, (0, 0)⟩⟩]⟩,
        .entry ⟨0, [], [⟨2, [1]⟩]⟩, .spends ()] := by
  have hce : ChangesetEntry.Fits ⟨0, [], [⟨2, [1]⟩]⟩ := by
    refine ⟨fun c hc => by simp at hc, fun c hc => ?_, by decide, by decide⟩
    rw [List.mem_singleton.mp hc]
    exact ⟨by decide, by decide⟩
  exact applyChangeset_encode (.relation usersRelation_fits (by decide)
    (.entry hce (by decide) (by decide) (by decide) (.spends rfl (by decide) .nil)))

theorem applyChangeset_rejects_delete {pre : List (Element σ)}
    (hpre : Decodable decodeSpends encodeSpends [] pre) {ce : ChangesetEntry} (hce : ce.Fits)
    (hkind : ce.kind = "delete") (hlen : ce.marshalBinary.length < 2 ^ 32) (more : Bytes) :
    applyChangeset decodeSpends (pre.flatMap (Element.encode encodeSpends) ++
        streamElement changesetEntryType ce.marshalBinary ++ more) =
      .error (.error "unexpected end of data") := by
  -- the elements before the delete read back, and fuel is left for the delete
  set data := pre.flatMap (Element.encode encodeSpends) ++
    streamElement changesetEntryType ce.marshalBinary ++ more
  have hle := @length_le_length_flatMap_encode σ encodeSpends pre
  have hfuel : data.length + 1 = pre.length + ((data.length - pre.length) + 1) := by
    simp only [data, List.length_append]
    omega
  have hrun := applyChangesetLoop_encode hpre ((data.length - pre.length) + 1)
    (streamElement changesetEntryType ce.marshalBinary ++ more)
  rw [← List.append_assoc, ← hfuel, applyChangesetLoop_streamElement decodeSpends hlen,
    decodeElement_delete hce hkind] at hrun
  rw [applyChangeset, hrun]
  rfl

theorem applyChangeset_rejects_delete_after_relation :
    ChangesetEntry.kind ⟨0, [⟨2, [1]⟩], []⟩ = "delete" ∧
    applyChangeset (fun _ => .ok ())
        ([Element.relation ⟨"public", "users", some [⟨"id", some ⟨"int8", false, (0, 0)⟩⟩]⟩].flatMap
          (Element.encode fun () => []) ++
        streamElement changesetEntryType (ChangesetEntry.marshalBinary ⟨0, [⟨2, [1]⟩], []⟩) ++ []) =
      .error (.error "unexpected end of data") := by
  have hce : ChangesetEntry.Fits ⟨0, [⟨2, [1]⟩], []⟩ := by
    refine ⟨fun c hc => ?_, fun c hc => by simp at hc, by decide, by decide⟩
    rw [List.mem_singleton.mp hc]
    exact ⟨by decide, by decide⟩
  exact ⟨rfl, applyChangeset_rejects_delete
    (.relation usersRelation_fits (by decide) .nil) hce rfl (by decide) []⟩

end Loop

end KwilDb.Migrations
