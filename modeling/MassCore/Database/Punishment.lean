import MassCore.Script.Basic

/-!
Contract: the punishment table of package `ldb`, the store entries under `PUNISH` that
record a fault public key awaiting punishment.

`punishmentPubKeyToKey` keys an entry by `PUNISH` followed by the compressed public key, of
one of the two accepted lengths. `InsertPunishment` puts an entry on the store;
`insertPunishments`, `dropPunishments` and `insertBlockPunishments` issue puts and deletes on
a `storage.Batch` that the caller writes later. A batch is the list of its operations, and
writing it applies them in order (`Store.write`), so that the value a key ends with is the
one the last operation naming it left (`Store.write_apply`).

Owns: the key encoding and its injectivity, the loops with their partial batches on error,
the `BANHGT` record `insertBlockPunishments` writes, and the refinement of a set of pending
public keys by the store over every run of successful updates (`Run.refines`), from any store
with no key under `PUNISH`.

Does not own: the store and its batches, the public-key and fault-key encoders, the hash,
`insertFaultPk` and `faultPkHeightToKey`, none of which is in these sources; they are the
fields of `Codec`. `Put` on a batch records the operation and returns nil, and the store's
`Put` and `Has` do not fail. `FetchAllPunishment` is left out: it reads the store through an
iterator whose order is not part of these sources.
-/

namespace MassCore.Database

open MassCore.Script (Bytes bind_eq_ok leValue leValue_range_map)

/-- `punishmentPrefix = []byte("PUNISH")`. -/
def punishmentPrefix : Bytes := "PUNISH".toList.map Char.toUInt8

/-- An operation issued on a `storage.Batch`. -/
inductive BatchOp where
  | put (key value : Bytes)
  | delete (key : Bytes)
deriving DecidableEq, Repr

namespace BatchOp

/-- The key an operation names. -/
def key : BatchOp → Bytes
  | put key _ => key
  | delete key => key

/-- The value an operation leaves under its key. -/
def value : BatchOp → Option Bytes
  | put _ value => some value
  | delete _ => none

end BatchOp

/-- A `storage.Batch`: the operations issued on it, in order. -/
abbrev Batch := List BatchOp

/-- The store `db.stor`: the value each key holds. -/
abbrev Store := Bytes → Option Bytes

/-- Writing a batch applies its operations in order. -/
def Store.write (store : Store) (batch : Batch) : Store :=
  batch.foldl (fun store op => Function.update store op.key op.value) store

/-- A `*massutil.Block`, with the two things `insertBlockPunishments` reads: `Height()` and
`MsgBlock().Proposals.PunishmentArea`. -/
structure Block (FaultPubKey : Type) where
  height : UInt64
  punishmentArea : List FaultPubKey

/-- What the punishment table calls outside this file: `SerializeCompressed` and
`SerializeUncompressed` of a public key, the `PubKey` of a fault key and its `Bytes(wire.DB)`,
`wire.DoubleHashH(...).Bytes()`, which is 32 bytes, `insertFaultPk`, `faultPkHeightToKey`,
and the lengths `PUBLICKEYLENGTH_MASS` and `PUBLICKEYLENGTH_CHIA`. -/
structure Codec (PublicKey FaultPubKey : Type) where
  serializeCompressed : PublicKey → Bytes
  serializeUncompressed : PublicKey → Bytes
  pubKey : FaultPubKey → PublicKey
  toBytes : FaultPubKey → Except String Bytes
  doubleHashH : Bytes → Bytes
  doubleHashH_length : ∀ data, (doubleHashH data).length = 32
  insertFaultPk : Batch → UInt64 → FaultPubKey → Bytes → Batch × Option String
  faultPkHeightToKey : UInt64 → Bytes
  publicKeyLengthMass : Nat
  publicKeyLengthChia : Nat

/-- `binary.LittleEndian.PutUint16` into a fresh 2-byte buffer. -/
def putUint16 (value : Nat) : Bytes :=
  (List.range 2).map fun index => UInt8.ofNat (value / 256 ^ index)

theorem length_putUint16 (value : Nat) : (putUint16 value).length = 2 := rfl

/-- The count `putUint16` writes reads back modulo `2^16`. -/
theorem leValue_putUint16 (value : Nat) : leValue (putUint16 value) = value % 2 ^ 16 := by
  rw [putUint16, leValue_range_map]
  norm_num

/-! ## Writing a batch -/

namespace Store

theorem write_cons (store : Store) (op : BatchOp) (batch : Batch) :
    store.write (op :: batch) = Store.write (Function.update store op.key op.value) batch := rfl

theorem write_append (store : Store) (first second : Batch) :
    store.write (first ++ second) = (store.write first).write second :=
  List.foldl_append _ _ _ _

/-- A key no operation names keeps its value. -/
theorem write_of_unnamed (key : Bytes) :
    ∀ (batch : Batch) (store : Store), (∀ op ∈ batch, op.key ≠ key) → store.write batch key = store key
  | [], _, _ => rfl
  | op :: batch, store, unnamed => by
      rw [write_cons, write_of_unnamed key batch _ fun op member =>
        unnamed op (List.mem_cons_of_mem _ member)]
      exact Function.update_noteq (unnamed op (List.mem_cons_self _ _)).symm _ _

/-- A key some operation names ends with a value that every operation naming it leaves: the
value of the last one. -/
theorem write_apply {P : Option Bytes → Prop} (key : Bytes) :
    ∀ (batch : Batch) (store : Store), (∀ op ∈ batch, op.key = key → P op.value) →
      (∃ op ∈ batch, op.key = key) → P (store.write batch key)
  | [], _, _, ⟨_, member, _⟩ => absurd member (List.not_mem_nil _)
  | op :: batch, store, values, ⟨named, member, namesKey⟩ => by
      have valuesRest := fun op member => values op (List.mem_cons_of_mem _ member)
      rw [write_cons]
      by_cases later : ∃ op ∈ batch, op.key = key
      · exact write_apply key batch _ valuesRest later
      · push_neg at later
        have first : op.key = key := by
          rcases List.mem_cons.mp member with rfl | rest
          · exact namesKey
          · exact absurd namesKey (later named rest)
        rw [write_of_unnamed key batch _ later, ← first, Function.update_same]
        exact values op (List.mem_cons_self _ _) first

end Store

/-! ## The loops on a batch -/

/-- A `for` loop that calls `call` on the batch for each item and returns the first error;
what the calls before it issued stays in the batch. -/
def forEachUntilError {α : Type} (call : Batch → α → Batch × Option String) :
    Batch → List α → Batch × Option String
  | batch, [] => (batch, none)
  | batch, item :: rest =>
      match call batch item with
      | (batch, some err) => (batch, some err)
      | (batch, none) => forEachUntilError call batch rest

/-- Issue the operation an item maps to, or return its error. -/
def issue {α : Type} (operation : α → Except String BatchOp) (batch : Batch) (item : α) :
    Batch × Option String :=
  match operation item with
  | .error err => (batch, some err)
  | .ok op => (batch ++ [op], none)

theorem mem_of_mapM_eq_ok {α β ε : Type} {f : α → Except ε β} :
    ∀ {items : List α} {results : List β}, items.mapM f = .ok results →
      (∀ result ∈ results, ∃ item ∈ items, f item = .ok result) ∧
      ∀ item ∈ items, ∃ result ∈ results, f item = .ok result
  | [], _, mapped => by cases mapped; simp
  | item :: rest, results, mapped => by
      rw [List.mapM_cons] at mapped
      obtain ⟨result, first, mappedRest⟩ := bind_eq_ok.mp mapped
      obtain ⟨results, restOk, pure⟩ := bind_eq_ok.mp mappedRest
      cases pure
      obtain ⟨fromRest, toRest⟩ := mem_of_mapM_eq_ok restOk
      simp only [List.mem_cons, forall_eq_or_imp, exists_eq_or_imp, first, true_or, true_and]
      exact ⟨fun result member => .inr (fromRest result member),
        fun item member => .inr (toRest item member)⟩

/-- A loop of `issue` returns no error exactly when every item maps to an operation, and then
its batch gains those operations in order. -/
theorem forEachUntilError_issue_ok {α : Type} {operation : α → Except String BatchOp} :
    ∀ {items : List α} {batch batch' : Batch},
      forEachUntilError (issue operation) batch items = (batch', none) ↔
        ∃ ops, items.mapM operation = .ok ops ∧ batch' = batch ++ ops
  | [], batch, batch' => by
      rw [List.mapM_nil]
      exact ⟨fun looped => ⟨[], rfl, by cases looped; simp⟩,
        fun ⟨_, pure, appended⟩ => by cases pure; simp [forEachUntilError, appended]⟩
  | item :: rest, batch, batch' => by
      rw [List.mapM_cons]
      cases issued : operation item with
      | error err =>
          refine ⟨fun looped => by simp [forEachUntilError, issue, issued] at looped, ?_⟩
          rintro ⟨ops, mapped, -⟩
          cases mapped
      | ok op =>
          simp only [forEachUntilError, issue, issued]
          rw [forEachUntilError_issue_ok]
          constructor
          · rintro ⟨ops, restOk, rfl⟩
            exact ⟨op :: ops, by rw [restOk]; rfl, by simp⟩
          · rintro ⟨ops, mapped, rfl⟩
            cases restOk : rest.mapM operation with
            | error err => rw [restOk] at mapped; cases mapped
            | ok results =>
                rw [restOk] at mapped
                cases mapped
                exact ⟨results, rfl, by simp⟩

/-- A loop of `issue` that fails leaves in the batch the operations of the items before the
failing one. -/
theorem forEachUntilError_issue_error {α : Type} {operation : α → Except String BatchOp} :
    ∀ {items : List α} {batch batch' : Batch} {err : String},
      forEachUntilError (issue operation) batch items = (batch', some err) →
        ∃ before item after ops, items = before ++ item :: after ∧
          before.mapM operation = .ok ops ∧ operation item = .error err ∧ batch' = batch ++ ops
  | [], _, _, _, looped => by cases looped
  | item :: rest, batch, batch', err, looped => by
      cases issued : operation item with
      | error firstErr =>
          simp only [forEachUntilError, issue, issued, Prod.mk.injEq, Option.some.injEq] at looped
          obtain ⟨rfl, rfl⟩ := looped
          exact ⟨[], item, rest, [], rfl, rfl, issued, by simp⟩
      | ok op =>
          simp only [forEachUntilError, issue, issued] at looped
          obtain ⟨before, failing, after, ops, rfl, beforeOk, failed, rfl⟩ :=
            forEachUntilError_issue_error looped
          refine ⟨item :: before, failing, after, op :: ops, rfl, ?_, failed, by simp⟩
          rw [List.mapM_cons, issued, beforeOk]
          rfl

section Codec

variable {PublicKey FaultPubKey : Type} (codec : Codec PublicKey FaultPubKey)

/-- `punishmentPubKeyToKey(pk)`. -/
def punishmentPubKeyToKey (pk : PublicKey) : Except String Bytes :=
  let keyBytes := codec.serializeCompressed pk
  if keyBytes.length = codec.publicKeyLengthMass ∨ keyBytes.length = codec.publicKeyLengthChia then
    .ok (punishmentPrefix ++ keyBytes)
  else .error ("invalid pk length " ++ toString keyBytes.length)

/-- The `Put` of `insertPunishmentAtomic` and `InsertPunishment`. -/
def punishmentPut (fpk : FaultPubKey) : Except String BatchOp :=
  punishmentPubKeyToKey codec (codec.pubKey fpk) >>= fun key =>
    codec.toBytes fpk >>= fun data => .ok (.put key data)

/-- The `Delete` of `dropPunishments`. -/
def punishmentDelete (fpk : FaultPubKey) : Except String BatchOp :=
  (punishmentPubKeyToKey codec (codec.pubKey fpk)).map .delete

/-- `insertPunishmentAtomic(batch, fpk)`. -/
def insertPunishmentAtomic : Batch → FaultPubKey → Batch × Option String :=
  issue (punishmentPut codec)

/-- `insertPunishments(batch, fpks)`. -/
def insertPunishments : Batch → List FaultPubKey → Batch × Option String :=
  forEachUntilError (insertPunishmentAtomic codec)

/-- `dropPunishments(batch, pks)`. -/
def dropPunishments : Batch → List FaultPubKey → Batch × Option String :=
  forEachUntilError (issue (punishmentDelete codec))

/-- `ChainDb.InsertPunishment(fpk)`: the entry `insertPunishmentAtomic` issues, put on the
store directly. -/
def insertPunishment (stor : Store) (fpk : FaultPubKey) : Store × Option String :=
  match punishmentPut codec fpk with
  | .error err => (stor, some err)
  | .ok op => (stor.write [op], none)

/-- `ChainDb.ExistsPunishment(pk)`. -/
def existsPunishment (stor : Store) (pk : PublicKey) : Bool × Option String :=
  match punishmentPubKeyToKey codec pk with
  | .error err => (false, some err)
  | .ok key => ((stor key).isSome, none)

/-- `wire.DoubleHashH(fpk.PubKey.SerializeUncompressed())`, as the 32 bytes `sha.Bytes()`
returns. -/
def faultPkHash (fpk : FaultPubKey) : Bytes :=
  codec.doubleHashH (codec.serializeUncompressed (codec.pubKey fpk))

/-- The loop of `insertBlockPunishments`: for each fault key, its hash is added to
`shaListData`, `insertFaultPk` runs, and its punishment entry is deleted. Returns the batch,
`shaListData` and the first error. -/
def punishFaultPks (height : UInt64) :
    Batch → Bytes → List FaultPubKey → Batch × Bytes × Option String
  | batch, shaListData, [] => (batch, shaListData, none)
  | batch, shaListData, fpk :: rest =>
      let sha := faultPkHash codec fpk
      let shaListData := shaListData ++ sha
      match codec.insertFaultPk batch height fpk sha with
      | (batch, some err) => (batch, shaListData, some err)
      | (batch, none) =>
          match punishmentPubKeyToKey codec (codec.pubKey fpk) with
          | .error err => (batch, shaListData, some err)
          | .ok key => punishFaultPks height (batch ++ [.delete key]) shaListData rest

/-- `insertBlockPunishments(batch, blk)`: the loop, then the `BANHGT` record of the block's
fault-key hashes, led by their count as `uint16(len(faultPks))`. -/
def insertBlockPunishments (batch : Batch) (blk : Block FaultPubKey) : Batch × Option String :=
  match punishFaultPks codec blk.height batch (putUint16 (blk.punishmentArea.length % 2 ^ 16))
      blk.punishmentArea with
  | (batch, _, some err) => (batch, some err)
  | (batch, shaListData, none) =>
      if blk.punishmentArea.length > 0 then
        (batch ++ [.put (codec.faultPkHeightToKey blk.height) shaListData], none)
      else (batch, none)

/-! ## The key -/

theorem punishmentPubKeyToKey_eq_ok {pk : PublicKey} {key : Bytes} :
    punishmentPubKeyToKey codec pk = .ok key ↔
      ((codec.serializeCompressed pk).length = codec.publicKeyLengthMass ∨
        (codec.serializeCompressed pk).length = codec.publicKeyLengthChia) ∧
      punishmentPrefix ++ codec.serializeCompressed pk = key := by
  unfold punishmentPubKeyToKey
  dsimp only
  split_ifs with valid <;> simp [valid]

/-- Two public keys name the same entry exactly when they serialize alike. -/
theorem punishmentPubKeyToKey_eq_iff {pk pk' : PublicKey} {key key' : Bytes}
    (keyed : punishmentPubKeyToKey codec pk = .ok key)
    (keyed' : punishmentPubKeyToKey codec pk' = .ok key') :
    key = key' ↔ codec.serializeCompressed pk = codec.serializeCompressed pk' := by
  obtain ⟨-, rfl⟩ := (punishmentPubKeyToKey_eq_ok codec).mp keyed
  obtain ⟨-, rfl⟩ := (punishmentPubKeyToKey_eq_ok codec).mp keyed'
  simp only [List.append_cancel_left_eq]

theorem punishmentPubKeyToKey_inTable {pk : PublicKey} {key : Bytes}
    (keyed : punishmentPubKeyToKey codec pk = .ok key) : punishmentPrefix <+: key :=
  ⟨_, ((punishmentPubKeyToKey_eq_ok codec).mp keyed).2⟩

theorem punishmentPut_eq_ok {fpk : FaultPubKey} {op : BatchOp} :
    punishmentPut codec fpk = .ok op ↔
      ∃ key data, punishmentPubKeyToKey codec (codec.pubKey fpk) = .ok key ∧
        codec.toBytes fpk = .ok data ∧ op = .put key data := by
  simp only [punishmentPut, bind_eq_ok, Except.ok.injEq]
  constructor
  · rintro ⟨key, keyed, data, encoded, rfl⟩
    exact ⟨key, data, keyed, encoded, rfl⟩
  · rintro ⟨key, data, keyed, encoded, rfl⟩
    exact ⟨key, keyed, data, encoded, rfl⟩

theorem punishmentDelete_eq_ok {fpk : FaultPubKey} {op : BatchOp} :
    punishmentDelete codec fpk = .ok op ↔
      ∃ key, punishmentPubKeyToKey codec (codec.pubKey fpk) = .ok key ∧ op = .delete key := by
  cases keyed : punishmentPubKeyToKey codec (codec.pubKey fpk) <;>
    simp [punishmentDelete, keyed, Except.map, eq_comm]

/-! ## The pending public keys the store refines -/

/-- The public keys a punishment is pending for, by their compressed serialization. -/
abbrev Pending := Bytes → Bool

/-- `pending` with the public keys of `fpks` set to `punished`. -/
def mark (pending : Pending) (fpks : List FaultPubKey) (punished : Bool) : Pending :=
  fpks.foldl (fun pending fpk =>
    Function.update pending (codec.serializeCompressed (codec.pubKey fpk)) punished) pending

theorem mark_apply (punished : Bool) (serialized : Bytes) :
    ∀ (fpks : List FaultPubKey) (pending : Pending),
      mark codec pending fpks punished serialized =
        if ∃ fpk ∈ fpks, codec.serializeCompressed (codec.pubKey fpk) = serialized then punished
        else pending serialized
  | [], _ => by simp [mark]
  | fpk :: rest, pending => by
      rw [mark, List.foldl_cons, ← mark, mark_apply punished serialized rest,
        Function.update_apply]
      by_cases first : codec.serializeCompressed (codec.pubKey fpk) = serialized
      · simp [first]
      · simp [first, Ne.symm first]

/-- The store holds an entry for a public key exactly when `pending` names it. -/
def Refines (stor : Store) (pending : Pending) : Prop :=
  ∀ pk key, punishmentPubKeyToKey codec pk = .ok key →
    (stor key).isSome = pending (codec.serializeCompressed pk)

theorem existsPunishment_of_refines {stor : Store} {pending : Pending}
    (refines : Refines codec stor pending) {pk : PublicKey} {key : Bytes}
    (keyed : punishmentPubKeyToKey codec pk = .ok key) :
    existsPunishment codec stor pk = (pending (codec.serializeCompressed pk), none) := by
  simp only [existsPunishment, keyed, refines pk key keyed]

/-- Writing a batch whose operations under `PUNISH` name the entries of `fpks`, each leaving a
value exactly when `punished`, and that names each of them, marks `fpks` as `punished`. -/
theorem refines_write {stor : Store} {pending : Pending} (refines : Refines codec stor pending)
    {fpks : List FaultPubKey} {punished : Bool} {batch : Batch}
    (inTable : ∀ op ∈ batch, punishmentPrefix <+: op.key →
      ∃ fpk ∈ fpks, punishmentPubKeyToKey codec (codec.pubKey fpk) = .ok op.key ∧
        op.value.isSome = punished)
    (named : ∀ fpk ∈ fpks,
      ∃ op ∈ batch, punishmentPubKeyToKey codec (codec.pubKey fpk) = .ok op.key) :
    Refines codec (stor.write batch) (mark codec pending fpks punished) := by
  intro pk key keyed
  rw [mark_apply]
  split_ifs with marked
  · obtain ⟨fpk, member, sameBytes⟩ := marked
    obtain ⟨op, opMember, opKeyed⟩ := named fpk member
    refine @Store.write_apply (fun value => value.isSome = punished) key batch stor
      (fun op' member' namesKey => ?_)
      ⟨op, opMember, (punishmentPubKeyToKey_eq_iff codec opKeyed keyed).mpr sameBytes⟩
    obtain ⟨-, -, -, isSome⟩ :=
      inTable op' member' (namesKey ▸ punishmentPubKeyToKey_inTable codec keyed)
    exact isSome
  · rw [Store.write_of_unnamed key batch stor fun op member namesKey => ?_]
    · exact refines pk key keyed
    · obtain ⟨fpk, fpkMember, fpkKeyed, -⟩ :=
        inTable op member (namesKey ▸ punishmentPubKeyToKey_inTable codec keyed)
      exact marked ⟨fpk, fpkMember, (punishmentPubKeyToKey_eq_iff codec fpkKeyed keyed).mp namesKey⟩

/-! ## What each update leaves in the table -/

/-- `insertFaultPk` only appends to the batch, and neither it nor `faultPkHeightToKey` names a
key under `PUNISH`. -/
def KeepsPunishmentTable : Prop :=
  (∀ batch height fpk sha batch' err, codec.insertFaultPk batch height fpk sha = (batch', err) →
    ∃ ops, batch' = batch ++ ops ∧ ∀ op ∈ ops, ¬punishmentPrefix <+: op.key) ∧
  ∀ height, ¬punishmentPrefix <+: codec.faultPkHeightToKey height

/-- One fault key of a loop that returns no error: `insertFaultPk` returned no error, the key
has an entry, and the loop went on with its delete issued and its hash added. -/
theorem punishFaultPks_cons_eq_none {height : UInt64} {fpk : FaultPubKey}
    {rest : List FaultPubKey} {batch batch' : Batch} {shaListData shaListData' : Bytes}
    (looped : punishFaultPks codec height batch shaListData (fpk :: rest) =
      (batch', shaListData', none)) :
    ∃ batch₁ key, codec.insertFaultPk batch height fpk (faultPkHash codec fpk) = (batch₁, none) ∧
      punishmentPubKeyToKey codec (codec.pubKey fpk) = .ok key ∧
      punishFaultPks codec height (batch₁ ++ [.delete key]) (shaListData ++ faultPkHash codec fpk)
        rest = (batch', shaListData', none) := by
  rcases inserted : codec.insertFaultPk batch height fpk (faultPkHash codec fpk) with
    ⟨batch₁, _ | err⟩
  · cases keyed : punishmentPubKeyToKey codec (codec.pubKey fpk) with
    | error err => simp [punishFaultPks, inserted, keyed] at looped
    | ok key =>
        simp only [punishFaultPks, inserted, keyed] at looped
        exact ⟨batch₁, key, rfl, rfl, looped⟩
  · simp [punishFaultPks, inserted] at looped

/-- What a loop of `insertBlockPunishments` that returns no error issued under `PUNISH`: the
delete of each fault key's entry, and nothing else. -/
theorem punishFaultPks_batch (keeps : KeepsPunishmentTable codec) (height : UInt64) :
    ∀ {fpks : List FaultPubKey} {batch batch' : Batch} {shaListData shaListData' : Bytes},
      punishFaultPks codec height batch shaListData fpks = (batch', shaListData', none) →
      ∃ ops, batch' = batch ++ ops ∧
        (∀ op ∈ ops, punishmentPrefix <+: op.key →
          ∃ fpk ∈ fpks, punishmentPubKeyToKey codec (codec.pubKey fpk) = .ok op.key ∧
            op.value.isSome = false) ∧
        ∀ fpk ∈ fpks, ∃ op ∈ ops, punishmentPubKeyToKey codec (codec.pubKey fpk) = .ok op.key
  | [], _, _, _, _, looped => by
      cases looped
      exact ⟨[], by simp, by simp, by simp⟩
  | fpk :: rest, _, _, _, _, looped => by
      obtain ⟨batch₁, key, inserted, keyed, looped⟩ := punishFaultPks_cons_eq_none codec looped
      obtain ⟨faultOps, rfl, outside⟩ := keeps.1 _ _ _ _ _ _ inserted
      obtain ⟨ops, rfl, inTable, named⟩ := punishFaultPks_batch keeps height looped
      refine ⟨faultOps ++ BatchOp.delete key :: ops, by simp, ?_, ?_⟩
      · intro op member underTable
        simp only [List.mem_append, List.mem_cons] at member
        rcases member with fromFault | rfl | fromRest
        · exact absurd underTable (outside op fromFault)
        · exact ⟨fpk, List.mem_cons_self _ _, keyed, rfl⟩
        · obtain ⟨fpk', member', keyed', deleted⟩ := inTable op fromRest underTable
          exact ⟨fpk', List.mem_cons_of_mem _ member', keyed', deleted⟩
      · simp only [List.mem_cons, forall_eq_or_imp]
        refine ⟨⟨.delete key, by simp, keyed⟩, fun fpk' member' => ?_⟩
        obtain ⟨op, opMember, opKeyed⟩ := named fpk' member'
        exact ⟨op, by simp [opMember], opKeyed⟩

/-- A loop of `insertBlockPunishments` that returns no error adds the fault keys' hashes to
`shaListData`, in order. -/
theorem punishFaultPks_shaListData (height : UInt64) :
    ∀ {fpks : List FaultPubKey} {batch batch' : Batch} {shaListData shaListData' : Bytes},
      punishFaultPks codec height batch shaListData fpks = (batch', shaListData', none) →
      shaListData' = shaListData ++ (fpks.map (faultPkHash codec)).flatten
  | [], _, _, _, _, looped => by
      cases looped
      simp
  | _ :: _, _, _, _, _, looped => by
      obtain ⟨_, _, -, -, looped⟩ := punishFaultPks_cons_eq_none codec looped
      rw [punishFaultPks_shaListData height looped]
      simp

/-- A successful `insertBlockPunishments` ran its loop with no error and, for a block with
fault keys, put the record of their hashes after it. -/
theorem insertBlockPunishments_eq_none {batch batch' : Batch} {blk : Block FaultPubKey}
    (inserted : insertBlockPunishments codec batch blk = (batch', none)) :
    ∃ batch₁ shaListData, punishFaultPks codec blk.height batch
        (putUint16 (blk.punishmentArea.length % 2 ^ 16)) blk.punishmentArea =
          (batch₁, shaListData, none) ∧
      batch' = if blk.punishmentArea.length > 0 then
        batch₁ ++ [.put (codec.faultPkHeightToKey blk.height) shaListData] else batch₁ := by
  rcases looped : punishFaultPks codec blk.height batch
    (putUint16 (blk.punishmentArea.length % 2 ^ 16)) blk.punishmentArea with
    ⟨batch₁, shaListData, _ | err⟩
  · rw [insertBlockPunishments, looped] at inserted
    refine ⟨batch₁, shaListData, rfl, ?_⟩
    dsimp only at inserted
    split_ifs at inserted ⊢ <;> cases inserted <;> rfl
  · rw [insertBlockPunishments, looped] at inserted
    cases inserted

/-- The `BANHGT` record of a block with fault keys ends the batch: their count modulo `2^16`
as two little-endian bytes, then their 32-byte hashes in order. -/
theorem insertBlockPunishments_record {batch batch' : Batch} {blk : Block FaultPubKey}
    (inserted : insertBlockPunishments codec batch blk = (batch', none))
    (punished : blk.punishmentArea ≠ []) :
    ∃ record, batch'.getLast? = some (.put (codec.faultPkHeightToKey blk.height) record) ∧
      leValue (record.take 2) = blk.punishmentArea.length % 2 ^ 16 ∧
      record.drop 2 = (blk.punishmentArea.map (faultPkHash codec)).flatten ∧
      record.length = 2 + 32 * blk.punishmentArea.length := by
  obtain ⟨batch₁, shaListData, looped, rfl⟩ := insertBlockPunishments_eq_none codec inserted
  have shaEq := punishFaultPks_shaListData codec blk.height looped
  refine ⟨shaListData, by simp [List.length_pos.mpr punished], ?_, ?_, ?_⟩
  · rw [shaEq, List.take_left' (length_putUint16 _), leValue_putUint16, Nat.mod_mod]
  · rw [shaEq, List.drop_left' (length_putUint16 _)]
  · simp [shaEq, length_putUint16, List.length_flatten, Function.comp_def, faultPkHash,
      codec.doubleHashH_length, mul_comm]

/-- What a successful `insertBlockPunishments` issued under `PUNISH`: the delete of each fault
key's entry, and nothing else. -/
theorem insertBlockPunishments_batch (keeps : KeepsPunishmentTable codec) {batch batch' : Batch}
    {blk : Block FaultPubKey} (inserted : insertBlockPunishments codec batch blk = (batch', none)) :
    ∃ ops, batch' = batch ++ ops ∧
      (∀ op ∈ ops, punishmentPrefix <+: op.key →
        ∃ fpk ∈ blk.punishmentArea, punishmentPubKeyToKey codec (codec.pubKey fpk) = .ok op.key ∧
          op.value.isSome = false) ∧
      ∀ fpk ∈ blk.punishmentArea,
        ∃ op ∈ ops, punishmentPubKeyToKey codec (codec.pubKey fpk) = .ok op.key := by
  obtain ⟨batch₁, shaListData, looped, rfl⟩ := insertBlockPunishments_eq_none codec inserted
  obtain ⟨ops, rfl, inTable, named⟩ := punishFaultPks_batch codec keeps blk.height looped
  split_ifs
  · refine ⟨ops ++ [.put (codec.faultPkHeightToKey blk.height) shaListData], by simp, ?_,
      fun fpk member => ?_⟩
    · intro op member underTable
      rcases List.mem_append.mp member with fromLoop | record
      · exact inTable op fromLoop underTable
      · rw [List.mem_singleton.mp record] at underTable
        exact absurd underTable (keeps.2 blk.height)
    · obtain ⟨op, opMember, opKeyed⟩ := named fpk member
      exact ⟨op, List.mem_append_left _ opMember, opKeyed⟩
  · exact ⟨ops, rfl, inTable, named⟩

/-- Writing the operations a list of fault keys maps to, each naming the key's entry and
leaving a value exactly when `punished`, marks them as `punished`. -/
theorem refines_write_mapM {stor : Store} {pending : Pending} (refines : Refines codec stor pending)
    {operation : FaultPubKey → Except String BatchOp} {punished : Bool}
    (issues : ∀ fpk op, operation fpk = .ok op →
      punishmentPubKeyToKey codec (codec.pubKey fpk) = .ok op.key ∧ op.value.isSome = punished)
    {fpks : List FaultPubKey} {ops : Batch} (mapped : fpks.mapM operation = .ok ops) :
    Refines codec (stor.write ops) (mark codec pending fpks punished) := by
  obtain ⟨fromItems, toResults⟩ := mem_of_mapM_eq_ok mapped
  refine refines_write codec refines (fun op member _ => ?_) (fun fpk member => ?_)
  · obtain ⟨fpk, fpkMember, issued⟩ := fromItems op member
    exact ⟨fpk, fpkMember, issues fpk op issued⟩
  · obtain ⟨op, opMember, issued⟩ := toResults fpk member
    exact ⟨op, opMember, (issues fpk op issued).1⟩

theorem punishmentPut_issues {fpk : FaultPubKey} {op : BatchOp}
    (put : punishmentPut codec fpk = .ok op) :
    punishmentPubKeyToKey codec (codec.pubKey fpk) = .ok op.key ∧ op.value.isSome = true := by
  obtain ⟨key, data, keyed, -, rfl⟩ := (punishmentPut_eq_ok codec).mp put
  exact ⟨keyed, rfl⟩

theorem punishmentDelete_issues {fpk : FaultPubKey} {op : BatchOp}
    (deleted : punishmentDelete codec fpk = .ok op) :
    punishmentPubKeyToKey codec (codec.pubKey fpk) = .ok op.key ∧ op.value.isSome = false := by
  obtain ⟨key, keyed, rfl⟩ := (punishmentDelete_eq_ok codec).mp deleted
  exact ⟨keyed, rfl⟩

end Codec

/-! ## Updates -/

/-- A change a caller makes to the punishment table: `InsertPunishment`, or one of the three
batch functions run on a fresh batch. -/
inductive Update (FaultPubKey : Type) where
  /-- `InsertPunishment(fpk)`. -/
  | single (fpk : FaultPubKey)
  /-- The batch of `insertPunishments(batch, fpks)`. -/
  | inserts (fpks : List FaultPubKey)
  /-- The batch of `dropPunishments(batch, fpks)`. -/
  | drops (fpks : List FaultPubKey)
  /-- The batch of `insertBlockPunishments(batch, blk)`. -/
  | block (blk : Block FaultPubKey)

/-- The batch written to the store, unless its function returned an error. -/
def writeUnlessError (stor : Store) : Batch × Option String → Store × Option String
  | (batch, none) => (stor.write batch, none)
  | (_, some err) => (stor, some err)

theorem writeUnlessError_eq_ok {stor stor' : Store} {result : Batch × Option String} :
    writeUnlessError stor result = (stor', none) ↔
      ∃ batch, result = (batch, none) ∧ stor' = stor.write batch := by
  rcases result with ⟨batch, _ | err⟩ <;> simp [writeUnlessError, eq_comm]

section Updates

variable {PublicKey FaultPubKey : Type} (codec : Codec PublicKey FaultPubKey)

/-- The store after an update, and the error it returned: a batch is written only when its
function returned no error. -/
def Update.apply (stor : Store) : Update FaultPubKey → Store × Option String
  | .single fpk => insertPunishment codec stor fpk
  | .inserts fpks => writeUnlessError stor (insertPunishments codec [] fpks)
  | .drops fpks => writeUnlessError stor (dropPunishments codec [] fpks)
  | .block blk => writeUnlessError stor (insertBlockPunishments codec [] blk)

/-- What an update does to the pending public keys: an insert marks its fault keys pending, a
drop or a block clears them. -/
def Update.pending (pending : Pending) : Update FaultPubKey → Pending
  | .single fpk => mark codec pending [fpk] true
  | .inserts fpks => mark codec pending fpks true
  | .drops fpks => mark codec pending fpks false
  | .block blk => mark codec pending blk.punishmentArea false

/-- A failed update leaves the store as it was. -/
theorem Update.apply_eq_error {stor stor' : Store} {update : Update FaultPubKey} {err : String}
    (failed : update.apply codec stor = (stor', some err)) : stor' = stor := by
  have unwritten : ∀ result, writeUnlessError stor result = (stor', some err) → stor' = stor := by
    rintro ⟨batch, _ | _⟩ written <;> cases written
    rfl
  cases update with
  | single fpk =>
      simp only [Update.apply, insertPunishment] at failed
      split at failed <;> cases failed
      rfl
  | inserts fpks => exact unwritten _ failed
  | drops fpks => exact unwritten _ failed
  | block blk => exact unwritten _ failed

/-- An update that returns no error keeps the store a refinement of the pending public keys. -/
theorem Update.refines_apply (keeps : KeepsPunishmentTable codec) {stor stor' : Store}
    {pending : Pending} (refines : Refines codec stor pending) {update : Update FaultPubKey}
    (applied : update.apply codec stor = (stor', none)) :
    Refines codec stor' (update.pending codec pending) := by
  cases update with
  | single fpk =>
      cases put : punishmentPut codec fpk with
      | error err => simp [Update.apply, insertPunishment, put] at applied
      | ok op =>
          simp only [Update.apply, insertPunishment, put, Prod.mk.injEq, and_true] at applied
          subst applied
          exact refines_write_mapM codec refines (fun _ _ => punishmentPut_issues codec)
            (by rw [List.mapM_cons, put, List.mapM_nil]; rfl)
  | inserts fpks =>
      obtain ⟨batch, looped, rfl⟩ := writeUnlessError_eq_ok.mp applied
      obtain ⟨ops, mapped, rfl⟩ := forEachUntilError_issue_ok.mp looped
      exact refines_write_mapM codec refines (fun _ _ => punishmentPut_issues codec) mapped
  | drops fpks =>
      obtain ⟨batch, looped, rfl⟩ := writeUnlessError_eq_ok.mp applied
      obtain ⟨ops, mapped, rfl⟩ := forEachUntilError_issue_ok.mp looped
      exact refines_write_mapM codec refines (fun _ _ => punishmentDelete_issues codec) mapped
  | block blk =>
      obtain ⟨batch, inserted, rfl⟩ := writeUnlessError_eq_ok.mp applied
      obtain ⟨ops, rfl, inTable, named⟩ := insertBlockPunishments_batch codec keeps inserted
      exact refines_write codec refines inTable named

end Updates

/-- Updates applied one after another, each returning no error. -/
inductive Run {PublicKey FaultPubKey : Type} (codec : Codec PublicKey FaultPubKey) :
    Store → List (Update FaultPubKey) → Store → Prop
  | nil (stor : Store) : Run codec stor [] stor
  | cons {stor stor' stor'' : Store} {update : Update FaultPubKey}
      {updates : List (Update FaultPubKey)} :
      update.apply codec stor = (stor', none) → Run codec stor' updates stor'' →
      Run codec stor (update :: updates) stor''

section Runs

variable {PublicKey FaultPubKey : Type} {codec : Codec PublicKey FaultPubKey}

/-- Along a run, the store refines the pending public keys the updates leave. -/
theorem Run.refines (keeps : KeepsPunishmentTable codec) {stor stor' : Store}
    {updates : List (Update FaultPubKey)} (run : Run codec stor updates stor') {pending : Pending}
    (refines : Refines codec stor pending) :
    Refines codec stor' (updates.foldl (Update.pending codec) pending) := by
  induction run generalizing pending with
  | nil => exact refines
  | cons applied _ inductionHypothesis =>
      exact inductionHypothesis (Update.refines_apply codec keeps refines applied)

/-- A store with no key under `PUNISH` refines the empty set of pending public keys. -/
theorem refines_of_noEntry {stor : Store}
    (noEntry : ∀ key, punishmentPrefix <+: key → stor key = none) :
    Refines codec stor fun _ => false := by
  intro pk key keyed
  rw [noEntry key (punishmentPubKeyToKey_inTable codec keyed)]
  rfl

/-- After any run of updates that return no error, from a store with no key under `PUNISH`,
`ExistsPunishment` reports a public key as punished exactly when the last update naming it was
an insert. -/
theorem existsPunishment_after_run (keeps : KeepsPunishmentTable codec) {stor₀ stor : Store}
    (noEntry : ∀ key, punishmentPrefix <+: key → stor₀ key = none)
    {updates : List (Update FaultPubKey)} (run : Run codec stor₀ updates stor)
    {pk : PublicKey} {key : Bytes} (keyed : punishmentPubKeyToKey codec pk = .ok key) :
    existsPunishment codec stor pk =
      (updates.foldl (Update.pending codec) (fun _ => false) (codec.serializeCompressed pk), none) :=
  existsPunishment_of_refines codec (run.refines keeps (refines_of_noEntry noEntry)) keyed

end Runs

/-! ## Byte-string keys -/

/-- Public and fault keys that are their own bytes, accepted at two or three bytes; a hash of
32 zero bytes; an `insertFaultPk` that issues nothing; `BANHGT` records under the key `B`. -/
def bytesCodec : Codec Bytes Bytes where
  serializeCompressed := id
  serializeUncompressed := id
  pubKey := id
  toBytes := .ok
  doubleHashH _ := List.replicate 32 0
  doubleHashH_length _ := List.length_replicate _ _
  insertFaultPk batch _ _ _ := (batch, none)
  faultPkHeightToKey _ := [0x42]
  publicKeyLengthMass := 2
  publicKeyLengthChia := 3

theorem bytesCodec_keepsPunishmentTable : KeepsPunishmentTable bytesCodec :=
  ⟨fun _ _ _ _ _ _ inserted => by cases inserted; exact ⟨[], by simp, by simp⟩,
    fun _ => by show ¬punishmentPrefix <+: [0x42]; decide⟩

/-- A store that holds one `BANHGT` record, under the key `B` of `bytesCodec`, and nothing
under `PUNISH`. -/
def bannedHeightStore : Store := fun key => if key = [0x42] then some [0x00, 0x00] else none

theorem existsPunishment_after_block :
    KeepsPunishmentTable bytesCodec ∧
      (∀ key, punishmentPrefix <+: key → bannedHeightStore key = none) ∧
      ∃ stor, Run bytesCodec bannedHeightStore
          [.single [1, 2], .single [3, 4], .block ⟨7, [[1, 2]]⟩] stor ∧
        punishmentPubKeyToKey bytesCodec [1, 2] = .ok (punishmentPrefix ++ [1, 2]) ∧
        existsPunishment bytesCodec stor [1, 2] = (false, none) ∧
        existsPunishment bytesCodec stor [3, 4] = (true, none) := by
  have keeps := bytesCodec_keepsPunishmentTable
  have noEntry : ∀ key, punishmentPrefix <+: key → bannedHeightStore key = none := by
    intro key underTable
    have notRecord : key ≠ [0x42] := by
      rintro rfl
      exact absurd underTable (by decide)
    simp [bannedHeightStore, notRecord]
  obtain ⟨stor, run⟩ : ∃ stor, Run bytesCodec bannedHeightStore
      [.single [1, 2], .single [3, 4], .block ⟨7, [[1, 2]]⟩] stor :=
    ⟨_, .cons rfl (.cons rfl (.cons rfl (.nil _)))⟩
  have keyed₁ : punishmentPubKeyToKey bytesCodec [1, 2] = .ok (punishmentPrefix ++ [1, 2]) := rfl
  have keyed₂ : punishmentPubKeyToKey bytesCodec [3, 4] = .ok (punishmentPrefix ++ [3, 4]) := rfl
  exact ⟨keeps, noEntry, stor, run, keyed₁,
    (existsPunishment_after_run keeps noEntry run keyed₁).trans rfl,
    (existsPunishment_after_run keeps noEntry run keyed₂).trans rfl⟩

theorem insertPunishments_stops_at_shortKey :
    ∃ batch' err, insertPunishments bytesCodec [] [[1, 2], [9]] = (batch', some err) ∧
      ∃ before item after ops, [[1, 2], [9]] = before ++ item :: after ∧
        before.mapM (punishmentPut bytesCodec) = .ok ops ∧
        punishmentPut bytesCodec item = .error err ∧ batch' = [] ++ ops := by
  obtain ⟨batch', err, failed⟩ : ∃ batch' err,
      insertPunishments bytesCodec [] [[1, 2], [9]] = (batch', some err) := ⟨_, _, rfl⟩
  exact ⟨batch', err, failed, forEachUntilError_issue_error failed⟩

theorem insertBlockPunishments_record_oneFaultKey :
    ∃ batch', insertBlockPunishments bytesCodec [] ⟨7, [[1, 2]]⟩ = (batch', none) ∧
      ∃ record, batch'.getLast? = some (.put [0x42] record) ∧ leValue (record.take 2) = 1 ∧
        record.length = 34 := by
  obtain ⟨batch', inserted⟩ : ∃ batch',
      insertBlockPunishments bytesCodec [] ⟨7, [[1, 2]]⟩ = (batch', none) := ⟨_, rfl⟩
  obtain ⟨record, last, count, -, length⟩ :=
    insertBlockPunishments_record bytesCodec inserted (List.cons_ne_nil _ _)
  exact ⟨batch', inserted, record, last, count, length⟩

end MassCore.Database
