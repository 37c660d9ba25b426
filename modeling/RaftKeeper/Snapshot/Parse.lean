import RaftKeeper.Lib.Fallible
import RaftKeeper.Snapshot.Writer

/-!
# Parsing what was written

An object file that a writer has closed parses to the actions of its elements, whatever the
boundaries of the batches. The loader takes the number 2^64 - 1 for 0 and refuses a negative number
of children.
-/

namespace RaftKeeper

open List ZooReader

variable {version : SnapshotVersion} {checksum : UInt32} {batch : SnapshotBatchBody}

theorem SnapshotBatchBody.readBatch_bytes (short : batch.serialize.length < 2 ^ 32)
    (sizes : ∀ element ∈ batch.elements, element.length < 2 ^ 31) (checksum : UInt32)
    (rest : Bytes) :
    readBatch version checksum (batch.bytes ++ rest) =
      (parseBatch version (some batch.type) batch.elements).map fun actions =>
        { checksum := updateCheckSum checksum (getCRC32 batch.serialize)
          actions := actions
          rest := rest } := by
  have whole : batch.bytes ++ rest =
      littleEndian 4 batch.serialize.length ++
        (littleEndian 4 (getCRC32 batch.serialize).toNat ++ (batch.serialize ++ rest)) := by
    rw [bytes, header, Nat.mod_eq_of_lt short, take_length]
    simp only [append_assoc]
  have afterLength : (batch.bytes ++ rest).drop 4 =
      littleEndian 4 (getCRC32 batch.serialize).toNat ++ (batch.serialize ++ rest) := by
    rw [whole]
    exact drop_left' (length_littleEndian 4 _)
  have afterHeader : (batch.bytes ++ rest).drop 8 = batch.serialize ++ rest := by
    rw [show 8 = 4 + 4 by rfl, ← drop_drop, afterLength]
    exact drop_left' (length_littleEndian 4 _)
  have dataLength : ofLittleEndian ((batch.bytes ++ rest).take 4) = batch.serialize.length := by
    rw [whole, take_left' (length_littleEndian 4 _), ofLittleEndian_littleEndian short]
  have dataCrc : UInt32.ofNat (ofLittleEndian (((batch.bytes ++ rest).drop 4).take 4)) =
      getCRC32 batch.serialize := by
    rw [afterLength, take_left' (length_littleEndian 4 _),
      ofLittleEndian_littleEndian (getCRC32 batch.serialize).toNat_lt, UInt32.ofNat_toNat]
  have body : parseBatchBody version batch.serialize =
      parseBatch version (some batch.type) batch.elements := by
    have reads := reads_parse short sizes []
    rw [append_nil] at reads
    rw [parseBatchBody, reads]
  have long : ¬ (batch.bytes ++ rest).length < 8 := by
    rw [whole]
    simp only [length_append, length_littleEndian]
    omega
  simp only [RaftKeeper.readBatch, if_neg long, afterHeader, dataLength, dataCrc,
    take_left, drop_left, body]
  rw [if_neg (by simp), if_neg (by simp)]

def parseBatches (version : SnapshotVersion) :
    List SnapshotBatchBody → Except LoadError (List LoadAction)
  | [] => .ok []
  | batch :: rest => do
      let first ← parseBatch version (some batch.type) batch.elements
      let others ← parseBatches version rest
      pure (first ++ others)

theorem parseBatches_append (batches more : List SnapshotBatchBody) :
    parseBatches version (batches ++ more) = do
      let first ← parseBatches version batches
      let others ← parseBatches version more
      return first ++ others := by
  induction batches with
  | nil => exact (bind_pure _).symm
  | cons batch rest ih => simp only [cons_append, parseBatches, ih, bind_assoc, pure_bind,
      append_assoc]

/-- Everything in the batch fits its length field. -/
structure SnapshotBatchBody.Short (batch : SnapshotBatchBody) : Prop where
  fits : batch.Fits
  sizes : ∀ element ∈ batch.elements, element.length < 2 ^ 31

theorem SnapshotBatchBody.take_bytes (batch : SnapshotBatchBody) (rest : Bytes) :
    (batch.bytes ++ rest).take 8 = batch.header := by
  rw [bytes, append_assoc]
  exact take_left' (by simp [header])

theorem SnapshotBatchBody.not_short (batch : SnapshotBatchBody) (rest : Bytes) :
    ¬ (batch.bytes ++ rest).length < 8 := by
  simp only [bytes, header, length_append, length_littleEndian]
  omega

theorem parseLoop_tail (version : Option SnapshotVersion) (checksum : UInt32) :
    parseLoop version checksum (magicSnapshotTail ++ littleEndian 4 checksum.toNat) = .ok [] := by
  have magic : magicSnapshotTail.length = 8 := by decide
  have stored : UInt32.ofNat (ofLittleEndian ((littleEndian 4 checksum.toNat).take 4)) =
      checksum := by
    rw [take_of_length_le (by simp), ofLittleEndian_littleEndian checksum.toNat_lt,
      UInt32.ofNat_toNat]
  rw [parseLoop, take_left' magic, drop_left' magic, stored]
  rw [if_neg (by rw [length_append, magic]; omega), if_neg (by decide), if_pos rfl,
    if_neg (by simp), if_neg (by simp)]

variable {batches : List SnapshotBatchBody}

theorem readBatch_bind (short : batch.Short) (checksum : UInt32) {rest : Bytes}
    (continues : parseLoop (some version)
      (updateCheckSum checksum (getCRC32 batch.serialize)) rest = parseBatches version batches) :
    (readBatch version checksum (batch.bytes ++ rest) >>= fun read =>
      (parseLoop (some version) read.checksum read.rest).map (read.actions ++ ·)) =
      parseBatches version (batch :: batches) := by
  rw [batch.readBatch_bytes short.fits.short short.sizes, parseBatches, ← continues]
  cases parseBatch version (some batch.type) batch.elements with
  | error | ok actions => rfl

theorem parseLoop_batches (short : ∀ batch ∈ batches, batch.Short) (checksum : UInt32) :
    parseLoop (some version) checksum
      (batches.flatMap SnapshotBatchBody.bytes ++ (magicSnapshotTail ++
        littleEndian 4 (batches.foldl (fun current batch =>
          updateCheckSum current (getCRC32 batch.serialize)) checksum).toNat)) =
      parseBatches version batches := by
  induction batches generalizing checksum with
  | nil => exact parseLoop_tail _ _
  | cons batch rest ih =>
    rcases forall_mem_cons.mp short with ⟨isShort, restShort⟩
    rw [← readBatch_bind isShort checksum (ih restShort _)]
    rw [flatMap_cons, append_assoc, foldl_cons, parseLoop,
      if_neg (batch.not_short _), batch.take_bytes, if_neg isShort.fits.notHead,
      if_neg isShort.fits.notTail, Option.getD_some]
    split
    next fails => rw [fails]; rfl
    next succeeds => rw [succeeds]; rfl

theorem SnapshotObject.parseObject_bytes {type : SnapshotBatchType} {object : SnapshotObject}
    (sound : object.Sound type) (nonempty : object.batches ≠ [])
    (short : ∀ batch ∈ object.batches, batch.Short) :
    parseObject object.bytes = parseBatches .v2 object.batches := by
  have magic : magicSnapshotHead.length = 8 := by decide
  have checksum := sound.checksum
  cases found : object.batches with
  | nil => exact absurd found nonempty
  | cons first rest =>
    rw [found] at checksum short
    rcases forall_mem_cons.mp short with ⟨isShort, restShort⟩
    have file : object.bytes = magicSnapshotHead ++ (2 :: (first.bytes ++
        (rest.flatMap SnapshotBatchBody.bytes ++ (magicSnapshotTail ++
          littleEndian 4 object.checksum.toNat)))) := by
      simp [bytes, found]
    rw [← readBatch_bind isShort 0 (parseLoop_batches restShort _)]
    rw [parseObject, file, checksum, parseLoop, take_left' magic, if_pos rfl,
      if_neg (by rw [length_append, magic]; omega)]
    -- after the version comes the first batch
    split
    next nothing =>
      rw [drop_left' magic] at nothing
      cases nothing
    next byte after afterMagic =>
      rw [drop_left' magic] at afterMagic
      cases afterMagic
      simp only [show SnapshotVersion.ofByte 2 = some .v2 by rfl, foldl_cons]
      split
      next fails => rw [fails]; rfl
      next succeeds => rw [succeeds]; rfl

theorem parseObjects_bytes {objects : List SnapshotObject}
    (sound : ∀ object ∈ objects, (∃ type, object.Sound type) ∧ object.batches ≠ [])
    (short : ∀ object ∈ objects, ∀ batch ∈ object.batches, batch.Short) :
    parseObjects (objects.map SnapshotObject.bytes) =
      parseBatches .v2 (objects.flatMap SnapshotObject.batches) := by
  induction objects with
  | nil => rfl
  | cons object rest ih =>
    rcases forall_mem_cons.mp sound with ⟨⟨⟨type, isSound⟩, nonempty⟩, restSound⟩
    rcases forall_mem_cons.mp short with ⟨isShort, restShort⟩
    rw [map_cons, parseObjects, object.parseObject_bytes isSound nonempty isShort,
      ih restSound restShort, flatMap_cons, parseBatches_append]

section

variable {α : Type} {type : SnapshotBatchType} {encode : α → Bytes} {values : List α}
  {batch : SnapshotBatchBody} {batches : List SnapshotBatchBody} {accepted : α → Prop}

theorem parseElements_eq_ok_iff {β : Type} {parse : ℕ → Bytes → Except LoadError β}
    {meaning : α → β}
    (parses : ∀ value ∈ values, ∀ position result,
      parse position (encode value) = .ok result ↔ accepted value ∧ result = meaning value)
    (position : ℕ) (results : List β) :
    parseElements parse position (values.map encode) = .ok results ↔
      (∀ value ∈ values, accepted value) ∧ results = values.map meaning := by
  induction values generalizing position results with
  | nil => simp [parseElements, eq_comm]
  | cons value rest ih =>
    rcases forall_mem_cons.mp parses with ⟨parsesValue, parsesRest⟩
    simp only [map_cons, parseElements, Except.bind_eq_ok_iff, parsesValue,
      ih parsesRest, forall_mem_cons]
    constructor
    · rintro ⟨_, ⟨isAccepted, rfl⟩, _, ⟨others, rfl⟩, same⟩
      cases same
      exact ⟨⟨isAccepted, others⟩, rfl⟩
    · rintro ⟨⟨isAccepted, others⟩, rfl⟩
      exact ⟨_, ⟨isAccepted, rfl⟩, _, ⟨others, rfl⟩, rfl⟩

/-- The batches hold the values, encoded one after another. -/
structure BatchesOf (type : SnapshotBatchType) (encode : α → Bytes) (values : List α)
    (batches : List SnapshotBatchBody) : Prop where
  types : ∀ batch ∈ batches, batch.type = type ∨ batch = {}
  elements : batches.flatMap (·.elements) = values.map encode

theorem BatchesOf.cons_cases {rest : List SnapshotBatchBody}
    (written : BatchesOf type encode values (batch :: rest)) :
    ∃ first others, values = first ++ others ∧ BatchesOf type encode others rest ∧
      (batch = { type := type, elements := first.map encode } ∨ batch = {} ∧ first = []) := by
  rcases forall_mem_cons.mp written.types with ⟨typed, restTyped⟩
  have elements := written.elements
  rw [flatMap_cons, eq_comm, map_eq_append_iff] at elements
  rcases elements with ⟨first, others, rfl, ofBatch, ofRest⟩
  refine ⟨first, others, rfl, ⟨restTyped, ofRest.symm⟩, ?_⟩
  rcases typed with rfl | rfl
  · exact .inl (by rw [ofBatch])
  · exact .inr ⟨rfl, map_eq_nil_iff.mp ofBatch⟩

theorem BatchesOf.short (written : BatchesOf type encode values batches)
    (fits : ∀ batch ∈ batches, batch.Fits)
    (sizes : ∀ value ∈ values, (encode value).length < 2 ^ 31) :
    ∀ batch ∈ batches, batch.Short := by
  intro batch isBatch
  refine ⟨fits batch isBatch, fun element isElement => ?_⟩
  have isMember := mem_flatMap.mpr ⟨batch, isBatch, isElement⟩
  rw [written.elements] at isMember
  rcases mem_map.mp isMember with ⟨value, isValue, rfl⟩
  exact sizes value isValue

theorem BatchesOf.parse_eq_ok_iff (written : BatchesOf type encode values batches)
    {parse : ℕ → Bytes → Except LoadError LoadAction}
    (oneByOne : ∀ elements, parseBatch .v2 (some type) elements = parseElements parse 0 elements)
    {meaning : α → LoadAction}
    (parses : ∀ value ∈ values, ∀ position result,
      parse position (encode value) = .ok result ↔ accepted value ∧ result = meaning value)
    (actions : List LoadAction) :
    parseBatches .v2 batches = .ok actions ↔
      (∀ value ∈ values, accepted value) ∧ actions = values.map meaning := by
  induction batches generalizing values actions with
  | nil =>
    have none := written.elements
    rw [flatMap_nil, eq_comm, map_eq_nil_iff] at none
    simp [none, parseBatches, eq_comm]
  | cons batch rest ih =>
    rcases written.cons_cases with ⟨first, others, rfl, writtenRest, typed⟩
    rcases forall_mem_append.mp parses with ⟨parsesFirst, parsesOthers⟩
    have parsed : ∀ results, parseBatch .v2 (some batch.type) batch.elements = .ok results ↔
        (∀ value ∈ first, accepted value) ∧ results = first.map meaning := by
      intro results
      rcases typed with rfl | ⟨rfl, rfl⟩
      · rw [oneByOne]
        exact parseElements_eq_ok_iff parsesFirst 0 results
      · simp [parseBatch, parseElements, eq_comm]
    simp only [parseBatches, Except.bind_eq_ok_iff, parsed, ih writtenRest parsesOthers,
      forall_mem_append, map_append]
    constructor
    · rintro ⟨_, ⟨firstAccepted, rfl⟩, _, ⟨othersAccepted, rfl⟩, same⟩
      cases same
      exact ⟨⟨firstAccepted, othersAccepted⟩, rfl⟩
    · rintro ⟨⟨firstAccepted, othersAccepted⟩, rfl⟩
      exact ⟨_, ⟨firstAccepted, rfl⟩, _, ⟨othersAccepted, rfl⟩, rfl⟩

end

/-- A node that the loader reads back: its strings are short and its numbers are in range. -/
structure KeeperNode.Readable (path : Bytes) (node : KeeperNode) : Prop where
  path : path.length ≤ maxStringOrArraySize
  data : node.data.length ≤ maxStringOrArraySize
  aclId : node.aclId < 2 ^ 64 - 1
  numChildren : ¬ node.stat.numChildren < 0

/-- What the loader makes of a node: its children are found later, and the number of its list
has 64 bits, all of which stand for no list. -/
def KeeperNode.reread (node : KeeperNode) : KeeperNode :=
  { node.cloneWithoutChildren with
    aclId := if node.aclId % 2 ^ 64 = 2 ^ 64 - 1 then 0 else node.aclId % 2 ^ 64 }

theorem KeeperNode.reread_of_lt {node : KeeperNode} (inRange : node.aclId < 2 ^ 64 - 1) :
    node.reread = node.cloneWithoutChildren := by
  rw [reread, Nat.mod_eq_of_lt (by omega), if_neg inRange.ne]
  rfl

variable {entry : Bytes × KeeperNode}

theorem parseNode_serializeKeeperNode (bound : (serializeKeeperNode entry).length < 2 ^ 31)
    (position : ℕ) (action : LoadAction) :
    parseNode .v2 position (serializeKeeperNode entry) = .ok action ↔
      (entry.1.length ≤ maxStringOrArraySize ∧ entry.2.data.length ≤ maxStringOrArraySize ∧
        ¬ entry.2.stat.numChildren < 0) ∧ action = .node entry.1 entry.2.reread := by
  have reads : (parseKeeperNode .v2).ReadsIff (serializeKeeperNode entry)
      (entry.1, { entry.2.cloneWithoutChildren with aclId := entry.2.aclId % 2 ^ 64 })
      (entry.1.length ≤ maxStringOrArraySize ∧ entry.2.data.length ≤ maxStringOrArraySize ∧
        True) := by
    simp only [serializeKeeperNode, writeString, length_append] at bound
    simp only [serializeKeeperNode, append_assoc]
    apply (string_readsIff (by omega)).bind
    apply (string_readsIff (by omega)).bind
    apply Reader.Reads.always
    apply (reads_uint64_mod _).bind
    apply (reads_bool _).bind
    apply (reads_bool _).bind
    apply Reader.Reads.last
    exact reads_stat _
  rcases reads.run_cases with ⟨⟨path, data, _⟩, ran⟩ | ⟨long, error, ran⟩
  · have parsed : parseNode .v2 position (serializeKeeperNode entry) =
        if entry.2.stat.numChildren < 0 then .error (.cantParseNode (position + 1))
        else .ok (.node entry.1 entry.2.reread) := by
      rw [parseNode, ran]
      rfl
    rw [parsed]
    split <;> simp [*, eq_comm]
  · rw [and_true] at long
    simp only [parseNode, ran, ← and_assoc (a := entry.1.length ≤ _), long]
    simp

theorem length_serializeKeeperNode (path : entry.1.length ≤ maxStringOrArraySize)
    (data : entry.2.data.length ≤ maxStringOrArraySize) :
    (serializeKeeperNode entry).length ≤ nuraftBufferSize := by
  simp only [maxStringOrArraySize] at path data
  simp only [nuraftBufferSize, serializeKeeperNode, writeString, writeInt32, writeUInt64, writeBool,
    Stat.toBytes, writeInt64, length_append, length_bigEndian, length_singleton]
  omega

theorem parseSession_serializeSession {sessionAndAuth : Dict Int64 AuthIDs} {entry : Int64 × Int64}
    (bound : (serializeSession sessionAndAuth entry).length < 2 ^ 31) (position : ℕ)
    (action : LoadAction) :
    parseSession .v2 position (serializeSession sessionAndAuth entry) = .ok action ↔
      AuthIDs.Readable ((sessionAndAuth.lookup entry.1).getD []) ∧
        action = .session entry.1 entry.2 ((sessionAndAuth.lookup entry.1).getD []) := by
  have reads : (readSession .v2).ReadsIff (serializeSession sessionAndAuth entry)
      (.session entry.1 entry.2 ((sessionAndAuth.lookup entry.1).getD []))
      (True ∧ True ∧ AuthIDs.Readable ((sessionAndAuth.lookup entry.1).getD [])) := by
    simp only [serializeSession, length_append] at bound
    simp only [serializeSession, append_assoc]
    apply (reads_int64 _).always.bind
    apply (reads_int64 _).always.bind
    apply Reader.ReadsIff.last
    exact authIDs_readsIff (by omega)
  rcases reads.run_cases with ⟨⟨_, _, readable⟩, ran⟩ | ⟨refused, error, ran⟩
  · simp [parseSession, ran, readable, eq_comm]
  · rw [true_and, true_and] at refused
    simp [parseSession, ran, refused]

theorem parseAcl_serializeAcl {entry : ℕ × ACLs}
    (bound : (serializeAcl entry).length < 2 ^ 31) (position : ℕ) (action : LoadAction) :
    parseAcl position (serializeAcl entry) = .ok action ↔
      entry.2.Readable ∧ action = .acl (entry.1 % 2 ^ 64) entry.2 := by
  have reads : readAcl.ReadsIff (serializeAcl entry) (.acl (entry.1 % 2 ^ 64) entry.2)
      (True ∧ entry.2.Readable) := by
    simp only [serializeAcl, length_append] at bound
    apply (reads_uint64_mod _).always.bind
    apply Reader.ReadsIff.last
    exact acls_readsIff (by omega)
  rcases reads.run_cases with ⟨⟨_, readable⟩, ran⟩ | ⟨refused, error, ran⟩
  · simp [parseAcl, ran, readable, eq_comm]
  · rw [true_and] at refused
    simp [parseAcl, ran, refused]

theorem parseIntEntry_serializeIntEntry {entry : Bytes × Int64}
    (readable : entry.1.length ≤ maxStringOrArraySize) (position : ℕ)
    (result : Bytes × Int64) :
    parseIntEntry position (serializeIntEntry entry) = .ok result ↔ True ∧ result = entry := by
  have reads : readIntEntry.Reads (serializeIntEntry entry) entry := by
    apply (reads_string readable).bind
    apply Reader.Reads.last
    exact reads_int64 _
  have parsed := reads []
  rw [append_nil] at parsed
  rw [parseIntEntry, parsed]
  simp [eq_comm]

variable {entries : List (Bytes × Int64)}

theorem mem_of_lookup_intMapOf {key : Bytes} {value : Int64}
    (found : (intMapOf entries).lookup key = some value) : (key, value) ∈ entries := by
  by_cases present : key ∈ entries.map Prod.fst
  · rcases @Finmap.lookup_insertAll_of_mem _ _ _ ∅ _ _ present with ⟨other, isMember, foundOther⟩
    rw [intMapOf, foundOther] at found
    cases found
    exact isMember
  · rw [intMapOf, Finmap.lookup_insertAll_of_notMem present, Finmap.lookup_empty] at found
    cases found

theorem isSome_lookup_intMapOf {entry : Bytes × Int64} (isEntry : entry ∈ entries) :
    ((intMapOf entries).lookup entry.1).isSome := by
  rcases @Finmap.lookup_insertAll_of_mem _ _ _ ∅ _ _ (mem_map_of_mem isEntry) with
    ⟨value, _, found⟩
  rw [intMapOf, found]
  rfl

theorem BatchesOf.parse_intMap (written : BatchesOf .uintMap serializeIntEntry entries batches)
    (readable : ∀ entry ∈ entries, entry.1.length ≤ maxStringOrArraySize) :
    ∃ groups : List (List (Bytes × Int64)), groups.flatten = entries ∧
      parseBatches .v2 batches = .ok (groups.map fun group => .intMap (intMapOf group)) := by
  induction batches generalizing entries with
  | nil =>
    have none := written.elements
    rw [flatMap_nil, eq_comm, map_eq_nil_iff] at none
    exact ⟨[], none.symm, rfl⟩
  | cons batch rest ih =>
    rcases written.cons_cases with ⟨first, others, rfl, writtenRest, typed⟩
    rcases forall_mem_append.mp readable with ⟨firstReadable, othersReadable⟩
    rcases ih writtenRest othersReadable with ⟨groups, flat, parsed⟩
    rcases typed with rfl | ⟨rfl, rfl⟩
    · have entriesParsed := (parseElements_eq_ok_iff (fun entry isEntry position result =>
        parseIntEntry_serializeIntEntry (firstReadable entry isEntry) position result) 0 first).mpr
          ⟨fun _ _ => trivial, (map_id _).symm⟩
      refine ⟨first :: groups, by rw [flatten_cons, flat], ?_⟩
      rw [parseBatches, parseBatch, entriesParsed, parsed]
      rfl
    · refine ⟨groups, flat, ?_⟩
      rw [parseBatches, parsed]
      rfl

end RaftKeeper
