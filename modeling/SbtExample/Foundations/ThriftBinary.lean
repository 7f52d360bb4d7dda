import SbtExample.Foundations.Thrift

/-! # The binary protocol

A model of `TBinaryProtocol` on a memory transport: big-endian integers, texts as their length and
their UTF-8 bytes, a versioned message header, a type byte and an id before each field. It is
lawful. A text that is not UTF-8 is read as the replacement character.
-/
set_option autoImplicit false
set_option maxHeartbeats 250000

namespace SbtExample.Thrift.Binary
open Reader

/-! ## Integers -/

/-- The last `width` bytes of `n`, the most significant one first. -/
def writeNat : ℕ → ℕ → Bytes
  | 0, _ => []
  | width + 1, n => writeNat width (n / 256) ++ [UInt8.ofNat n]

def natOf (bytes : Bytes) : ℕ := bytes.foldl (fun n b => n * 256 + b.toNat) 0

/-- `readAll` of the transport: it throws when the bytes run out, and has taken them then. -/
def readAll (width : ℕ) : TReader Bytes := fun s =>
  if width ≤ s.length then .ok (s.take width) (s.drop width)
  else .error (.other "org.apache.thrift.transport.TTransportException") []

def readNat (width : ℕ) : TReader ℕ := do
  let bytes ← readAll width
  return natOf bytes

theorem length_writeNat (width n : ℕ) : (writeNat width n).length = width := by
  induction width generalizing n with
  | zero => rfl
  | succ width ih => rw [writeNat, List.length_append, ih, List.length_singleton]

theorem natOf_concat (bytes : Bytes) (b : UInt8) :
    natOf (bytes ++ [b]) = natOf bytes * 256 + b.toNat := by
  rw [natOf, List.foldl_append]
  rfl

theorem natOf_writeNat (width n : ℕ) : natOf (writeNat width n) = n % 256 ^ width := by
  induction width generalizing n with
  | zero => rw [pow_zero, Nat.mod_one]; rfl
  | succ width ih =>
    have hmod : n % 256 ^ (width + 1) = n % 256 + 256 * (n / 256 % 256 ^ width) := by
      rw [pow_succ', Nat.mod_mul]
    rw [writeNat, natOf_concat, ih, UInt8.toNat_ofNat', hmod]
    omega

theorem parses_readAll (bytes : Bytes) : Parses (readAll bytes.length) bytes bytes := by
  intro rest
  rw [readAll, if_pos (by rw [List.length_append]; omega), List.take_left, List.drop_left]

theorem parses_readNat (width n : ℕ) :
    Parses (readNat width) (writeNat width n) (n % 256 ^ width) := by
  have h := parses_readAll (writeNat width n)
  rw [length_writeNat] at h
  refine h.bind_pure ?_
  rw [natOf_writeNat]
  exact .pure _

theorem shrinks_readAll (width : ℕ) : Shrinks Throwable.endless (readAll width) where
  length_le {s t bytes} h := by
    rw [readAll] at h
    split at h
    · cases h
      rw [List.length_drop]
      omega
    · cases h
  ends {s t} h := by
    rw [readAll] at h
    split at h <;> cases h

theorem shrinks_readNat (width : ℕ) : Shrinks Throwable.endless (readNat width) :=
  (shrinks_readAll width).bind fun _ => .pure _

def writeByte (b : UInt8) : Bytes := [b]
def writeI16 (n : Int16) : Bytes := writeNat 2 n.toUInt16.toNat
def writeI32 (n : Int32) : Bytes := writeNat 4 n.toUInt32.toNat

def readByte : TReader UInt8 := do
  let n ← readNat 1
  return UInt8.ofNat n

def readI16 : TReader Int16 := do
  let n ← readNat 2
  return (UInt16.ofNat n).toInt16

def readI32 : TReader Int32 := do
  let n ← readNat 4
  return (UInt32.ofNat n).toInt32

theorem parses_readByte (b : UInt8) : Parses readByte (writeByte b) b := by
  have h := parses_readNat 1 b.toNat
  rw [show writeNat 1 b.toNat = writeByte b by rw [writeNat, UInt8.ofNat_toNat]; rfl] at h
  refine h.bind_pure ?_
  rw [Nat.mod_eq_of_lt (show b.toNat < 256 ^ 1 from b.toNat_lt), UInt8.ofNat_toNat]
  exact .pure b

theorem parses_readI16 (n : Int16) : Parses readI16 (writeI16 n) n := by
  refine (parses_readNat 2 _).bind_pure ?_
  rw [Nat.mod_eq_of_lt (show n.toUInt16.toNat < 256 ^ 2 from n.toUInt16.toNat_lt),
    UInt16.ofNat_toNat]
  exact .pure n

theorem parses_readI32 (n : Int32) : Parses readI32 (writeI32 n) n := by
  refine (parses_readNat 4 _).bind_pure ?_
  rw [Nat.mod_eq_of_lt (show n.toUInt32.toNat < 256 ^ 4 from n.toUInt32.toNat_lt),
    UInt32.ofNat_toNat]
  exact .pure n

theorem shrinks_readByte : Shrinks Throwable.endless readByte :=
  (shrinks_readNat 1).bind fun _ => .pure _

theorem shrinks_readI16 : Shrinks Throwable.endless readI16 :=
  (shrinks_readNat 2).bind fun _ => .pure _

theorem shrinks_readI32 : Shrinks Throwable.endless readI32 :=
  (shrinks_readNat 4).bind fun _ => .pure _

/-! ## Texts -/

def utf8 (s : String) : Bytes := s.toByteArray.data.toList

def writeString (s : String) : Bytes := writeI32 (Int32.ofNat s.utf8ByteSize) ++ utf8 s

def decode (bytes : Bytes) : String := (String.fromUTF8? ⟨bytes.toArray⟩).getD "\uFFFD"

/-- The body of a text of the given length; Java refuses a negative one. -/
def readStringBody (size : Int32) : TReader String :=
  if size < 0 then throw (.other "java.lang.StringIndexOutOfBoundsException")
  else do
    let bytes ← readAll size.toNatClampNeg
    return decode bytes

def readString : TReader String := do
  let size ← readI32
  readStringBody size

theorem length_utf8 (s : String) : (utf8 s).length = s.utf8ByteSize := rfl

theorem decode_utf8 (s : String) : decode (utf8 s) = s := by
  have h : (⟨(utf8 s).toArray⟩ : ByteArray) = s.toByteArray := by
    rw [utf8, Array.toArray_toList]
  rw [decode, h, String.fromUTF8?, dif_pos s.isValidUTF8]
  rfl

theorem parses_readStringBody (s : String) (h : Fits s) :
    Parses (readStringBody (Int32.ofNat s.utf8ByteSize)) (utf8 s) s := by
  have hsize : (Int32.ofNat s.utf8ByteSize).toInt = s.utf8ByteSize := Int32.toInt_ofNat_of_lt h
  have hnat : (Int32.ofNat s.utf8ByteSize).toNatClampNeg = (utf8 s).length := by
    rw [length_utf8, Int32.toNatClampNeg, hsize, Int.toNat_natCast]
  rw [readStringBody, if_neg (by rw [Int32.lt_iff_toInt_lt, hsize, Int32.toInt_zero]; omega), hnat]
  refine (parses_readAll (utf8 s)).bind_pure ?_
  rw [decode_utf8]
  exact .pure s

theorem parses_readString (s : String) (h : Fits s) : Parses readString (writeString s) s :=
  (parses_readI32 _).bind (parses_readStringBody s h)

theorem shrinks_readStringBody (size : Int32) :
    Shrinks Throwable.endless (readStringBody size) := by
  rw [readStringBody]
  split
  · exact .throw (fun h => by cases h)
  · exact (shrinks_readAll _).bind fun _ => .pure _

theorem shrinks_readString : Shrinks Throwable.endless readString :=
  shrinks_readI32.bind fun size => shrinks_readStringBody size

/-! ## Messages and fields -/

/-- The first word of a message: the version and, in its last byte, the type. -/
def version1 : UInt32 := 0x80010000

def writeMessageBegin (m : TMessage) : Bytes :=
  writeI32 (version1 ||| m.type.toUInt32).toInt32 ++ writeString m.name ++ writeI32 m.seqid

/-- A message without a version starts with the length of its name. -/
def readMessageBegin : TReader TMessage := do
  let size ← readI32
  if size < 0 then
    if size.toUInt32 &&& 0xffff0000 ≠ version1 then
      throw (.protocol (some "Bad version in readMessageBegin"))
    else do
      let name ← readString
      let seqid ← readI32
      return ⟨name, size.toUInt32.toUInt8, seqid⟩
  else do
    let name ← readStringBody size
    let type ← readByte
    let seqid ← readI32
    return ⟨name, type, seqid⟩

def writeFieldBegin (f : TField) : Bytes := writeByte f.type ++ writeI16 f.id

def readFieldBegin : TReader TField := do
  let type ← readByte
  if type = TType.stop then return ⟨"", type, 0⟩
  else do
    let id ← readI16
    return ⟨"", type, id⟩

theorem versioned {type : UInt8} (h : type < 128) :
    (version1 ||| type.toUInt32).toInt32 < 0 ∧
      (version1 ||| type.toUInt32) &&& 0xffff0000 = version1 ∧
      (version1 ||| type.toUInt32).toUInt8 = type := by
  revert type
  decide +kernel

theorem parses_readMessageBegin (m : TMessage) (h : Fits m.name) (h' : m.type < 128) :
    Parses readMessageBegin (writeMessageBegin m) m := by
  obtain ⟨hneg, hversion, htype⟩ := versioned h'
  rw [readMessageBegin, writeMessageBegin, List.append_assoc]
  refine (parses_readI32 _).bind ?_
  rw [if_pos hneg, UInt32.toUInt32_toInt32, hversion, if_neg (not_not_intro rfl), htype]
  exact (parses_readString _ h).bind ((parses_readI32 _).bind_pure (.pure m))

theorem parses_readFieldBegin (f : TField) (h : f.type ≠ TType.stop) :
    Parses readFieldBegin (writeFieldBegin f) f.unnamed := by
  refine (parses_readByte f.type).bind ?_
  rw [if_neg h]
  exact (parses_readI16 f.id).bind_pure (.pure _)

theorem parses_fieldStop : Parses readFieldBegin (writeByte TType.stop) ⟨"", TType.stop, 0⟩ := by
  refine (parses_readByte TType.stop).bind_pure ?_
  rw [if_pos rfl]
  exact .pure _

theorem shrinks_readMessageBegin : Shrinks Throwable.endless readMessageBegin := by
  refine shrinks_readI32.bind fun size => ?_
  split
  · split
    · exact .throw (fun h => by cases h)
    · exact shrinks_readString.bind fun _ => shrinks_readI32.bind fun _ => .pure _
  · exact (shrinks_readStringBody size).bind fun _ => shrinks_readByte.bind fun _ =>
      shrinks_readI32.bind fun _ => .pure _

theorem shrinks_readFieldBegin : Shrinks Throwable.endless readFieldBegin := by
  refine shrinks_readByte.bind fun type => ?_
  split
  · exact .pure _
  · exact shrinks_readI16.bind fun _ => .pure _

/-! ## Skipping -/

/-- The body of a collection of `count` elements. -/
def times : ℕ → TReader Unit → TReader Unit
  | 0, _ => pure ()
  | count + 1, r => do
    r
    times count r

/-- A round of the loop over the fields of a struct that is passed over. -/
def skipField (skip : UInt8 → TReader Unit) : TReader (Unit ⊕ Unit) := do
  let field ← readFieldBegin
  if field.type = TType.stop then return .inr ()
  else do
    skip field.type
    return .inl ()

/-- `TProtocolUtil.skip` with the depth that is left. A type byte that it does not know takes no
bytes. -/
def skipBelow : ℕ → UInt8 → TReader Unit
  | 0, _ => throw (.other "org.apache.thrift.TException")
  | depth + 1, type =>
    if type = 2 ∨ type = 3 then do
      let _ ← readAll 1
      return ()
    else if type = 6 then do
      let _ ← readAll 2
      return ()
    else if type = TType.i32 then do
      let _ ← readI32
      return ()
    else if type = 4 ∨ type = 10 then do
      let _ ← readAll 8
      return ()
    else if type = TType.string then do
      let _ ← readString
      return ()
    else if type = TType.struct then
      forever .endless (fun _ => skipField (skipBelow depth)) ()
    else if type = 13 then do
      let keyType ← readByte
      let valueType ← readByte
      let size ← readI32
      times size.toNatClampNeg (do
        skipBelow depth keyType
        skipBelow depth valueType)
    else if type = 14 ∨ type = 15 then do
      let elemType ← readByte
      let size ← readI32
      times size.toNatClampNeg (skipBelow depth elemType)
    else pure ()

def maxSkipDepth : ℕ := 2 ^ 31 - 1

def skip (type : UInt8) : TReader Unit := skipBelow maxSkipDepth type

theorem shrinks_times {r : TReader Unit} (h : Shrinks Throwable.endless r) (count : ℕ) :
    Shrinks Throwable.endless (times count r) := by
  induction count with
  | zero => exact .pure ()
  | succ count ih => exact h.bind fun _ => ih

theorem readFieldBegin_lt {s t : Bytes} {f : TField} (h : readFieldBegin s = .ok f t) :
    t.length < s.length := by
  obtain ⟨type, u, hb, hrest⟩ := bind_eq_ok h
  have hlt : u.length < s.length := by
    obtain ⟨n, v, hn, hpure⟩ := bind_eq_ok hb
    cases hpure
    obtain ⟨bytes, w, hall, hpure⟩ := bind_eq_ok hn
    cases hpure
    rw [readAll] at hall
    split at hall
    · cases hall
      rw [List.length_drop]
      omega
    · cases hall
  have hle : t.length ≤ u.length := by
    split at hrest
    · cases hrest
      exact le_rfl
    · exact (shrinks_readI16.bind fun _ => .pure _).length_le hrest
  exact hle.trans_lt hlt

theorem shrinks_skipFields {skip : UInt8 → TReader Unit}
    (h : ∀ type, Shrinks Throwable.endless (skip type)) :
    Shrinks Throwable.endless (forever Throwable.endless (fun _ => skipField skip) ()) := by
  refine Shrinks.forever (fun _ => ?_) (fun _ _ s t ht => ?_) ()
  · refine shrinks_readFieldBegin.bind fun field => ?_
    split
    · exact .pure _
    · exact (h field.type).bind fun _ => .pure _
  · obtain ⟨field, u, hfield, hrest⟩ := bind_eq_ok ht
    refine lt_of_le_of_lt ?_ (readFieldBegin_lt hfield)
    split at hrest
    · cases hrest
    · exact ((h field.type).bind fun _ => .pure _).length_le hrest

theorem shrinks_skipBelow (depth : ℕ) (type : UInt8) :
    Shrinks Throwable.endless (skipBelow depth type) := by
  induction depth generalizing type with
  | zero => exact .throw (fun h => by cases h)
  | succ depth ih =>
    rw [skipBelow]
    split_ifs
    · exact (shrinks_readAll 1).bind fun _ => .pure _
    · exact (shrinks_readAll 2).bind fun _ => .pure _
    · exact shrinks_readI32.bind fun _ => .pure _
    · exact (shrinks_readAll 8).bind fun _ => .pure _
    · exact shrinks_readString.bind fun _ => .pure _
    · exact shrinks_skipFields ih
    · exact shrinks_readByte.bind fun keyType => shrinks_readByte.bind fun valueType =>
        shrinks_readI32.bind fun size =>
          shrinks_times ((ih keyType).bind fun _ => ih valueType) _
    · exact shrinks_readByte.bind fun elemType => shrinks_readI32.bind fun size =>
        shrinks_times (ih elemType) _
    · exact .pure ()

theorem parses_skipBelow_i32 (depth : ℕ) (n : Int32) :
    Parses (skipBelow (depth + 1) TType.i32) (writeI32 n) () := by
  rw [skipBelow, if_neg (by decide), if_neg (by decide), if_pos rfl]
  exact (parses_readI32 n).bind_pure (.pure ())

theorem parses_skipBelow_string (depth : ℕ) (s : String) (h : Fits s) :
    Parses (skipBelow (depth + 1) TType.string) (writeString s) () := by
  rw [skipBelow, if_neg (by decide), if_neg (by decide), if_neg (by decide), if_neg (by decide),
    if_pos rfl]
  exact (parses_readString s h).bind_pure (.pure ())

/-! ## The protocol -/

/-- The calls on the wire, before `TApplicationException` is added to them. -/
def wire : TProtocol where
  writeMessageBegin := writeMessageBegin
  writeMessageEnd := []
  writeStructBegin _ := []
  writeStructEnd := []
  writeFieldBegin := writeFieldBegin
  writeFieldEnd := []
  writeFieldStop := writeByte TType.stop
  writeI32 := writeI32
  writeString := writeString
  readMessageBegin := readMessageBegin
  readMessageEnd := pure ()
  readStructBegin := pure ()
  readStructEnd := pure ()
  readFieldBegin := readFieldBegin
  readFieldEnd := pure ()
  readI32 := readI32
  readString := readString
  skip := skip
  writeException _ := []
  readException := throw (.other "")

theorem parses_skip_plain (depth : ℕ) {v : WireValue} (h : v.Plain) :
    Parses (skipBelow (depth + 1) v.type) (v.write wire) () := by
  cases v with
  | i32 n => exact parses_skipBelow_i32 depth n
  | string s => exact parses_skipBelow_string depth s h
  | other type body => exact h.elim

theorem plain_type_ne_stop {v : WireValue} (h : v.Plain) : v.type ≠ TType.stop := by
  cases v with
  | i32 n => exact (by decide : TType.i32 ≠ TType.stop)
  | string s => exact (by decide : TType.string ≠ TType.stop)
  | other type body => exact h.elim

theorem parses_skipBelow_struct (depth : ℕ) (name : String) (fields : List WireField)
    (h : ∀ f ∈ fields, f.value.Plain) :
    Parses (skipBelow (depth + 2) TType.struct) (writeStruct wire name fields) () := by
  have hbytes : writeStruct wire name fields
      = fields.flatMap (WireField.write wire) ++ writeByte TType.stop := by
    rw [writeStruct]
    exact List.append_nil _
  rw [hbytes, skipBelow, if_neg (by decide), if_neg (by decide), if_neg (by decide),
    if_neg (by decide), if_neg (by decide), if_pos rfl]
  refine Parses.forever (fun _ _ => ()) (fun _ => ()) fields
    (fun _ f hf => ?_) (fun f hf => ?_) (fun _ => ?_) ()
  · have hne := plain_type_ne_stop (h f hf)
    have hfield := parses_readFieldBegin f.desc hne
    rw [WireField.write, List.append_assoc]
    refine hfield.bind ?_
    rw [if_neg (show f.desc.unnamed.type ≠ TType.stop from hne)]
    exact (parses_skip_plain depth (h f hf)).bind (.pure _)
  · change writeByte f.desc.type ++ _ ++ _ ++ _ ≠ []
    exact List.cons_ne_nil _ _
  · refine parses_fieldStop.bind_pure ?_
    rw [if_pos rfl]
    exact .pure _

/-- The fields of a `TApplicationException`; a `null` message is left out. -/
def exceptionFields (x : TApplicationException) : List WireField :=
  (x.message.toList.map fun s => ⟨"message", 1, .string s⟩) ++ [⟨"type", 2, .i32 x.type⟩]

def onExceptionField (this : TApplicationException) (field : TField) :
    TReader TApplicationException :=
  if field.id = 1 then caseString wire (fun s => { this with message := some s }) this field
  else if field.id = 2 then caseI32 wire (fun n => { this with type := n }) this field
  else caseDefault wire this field

def protocol : TProtocol where
  __ := wire
  writeException x := writeStruct wire "TApplicationException" (exceptionFields x)
  readException := readStruct wire onExceptionField ⟨0, none⟩

theorem skip_eq (type : UInt8) : skip type = skipBelow (2147483645 + 2) type := by
  rw [skip, show maxSkipDepth = 2147483645 + 2 by norm_num [maxSkipDepth]]

theorem parses_skip_i32 (n : Int32) : Parses (skip TType.i32) (writeI32 n) () := by
  rw [skip_eq]
  exact parses_skipBelow_i32 _ n

theorem parses_skip_string (s : String) (h : Fits s) :
    Parses (skip TType.string) (writeString s) () := by
  rw [skip_eq]
  exact parses_skipBelow_string _ s h

theorem parses_skip_struct (name : String) (fields : List WireField)
    (h : ∀ f ∈ fields, f.value.Plain) :
    Parses (skip TType.struct) (writeStruct wire name fields) () := by
  rw [skip_eq]
  exact parses_skipBelow_struct _ name fields h

theorem codec_wire : wire.Codec where
  message := parses_readMessageBegin
  messageEnd := .pure ()
  structBegin _ := .pure ()
  structEnd := .pure ()
  field := parses_readFieldBegin
  fieldEnd := .pure ()
  fieldStop := parses_fieldStop
  i32 := parses_readI32
  string := parses_readString
  skipI32 := parses_skip_i32
  skipString := parses_skip_string
  skipStruct := parses_skip_struct
  fieldBegin_lt := readFieldBegin_lt
  shrinks_message := shrinks_readMessageBegin
  shrinks_messageEnd := .pure ()
  shrinks_structBegin := .pure ()
  shrinks_structEnd := .pure ()
  shrinks_field := shrinks_readFieldBegin
  shrinks_fieldEnd := .pure ()
  shrinks_i32 := shrinks_readI32
  shrinks_string := shrinks_readString
  shrinks_skip := shrinks_skipBelow _

def storeException (this : TApplicationException) (f : WireField) : TApplicationException :=
  if f.id = 1 then f.value.storeString (fun s => { this with message := some s }) this
  else if f.id = 2 then f.value.storeI32 (fun n => { this with type := n }) this
  else this

theorem parses_onExceptionField (this : TApplicationException) {f : WireField}
    (h : f.value.Valid wire) :
    Parses (onExceptionField this f.header) (f.value.write wire) (storeException this f) := by
  change Parses (if f.id = 1 then _ else if f.id = 2 then _ else _) _
    (if f.id = 1 then _ else if f.id = 2 then _ else _)
  split_ifs
  · exact parses_caseString codec_wire _ this h
  · exact parses_caseI32 codec_wire _ this h
  · exact parses_caseDefault codec_wire this h

theorem valid_exceptionFields {x : TApplicationException} (h : x.Fits) :
    ∀ f ∈ exceptionFields x, f.value.Valid wire := by
  intro f hf
  rcases List.mem_append.mp hf with hm | hm
  · obtain ⟨s, hs, rfl⟩ := List.mem_map.mp hm
    exact h s (Option.mem_toList.mp hs)
  · rw [List.mem_singleton.mp hm]
    trivial

theorem foldl_exceptionFields (x : TApplicationException) :
    (exceptionFields x).foldl storeException ⟨0, none⟩ = x := by
  obtain ⟨type, message⟩ := x
  cases message <;> rfl

theorem parses_readException (x : TApplicationException) (h : x.Fits) :
    Parses protocol.readException (protocol.writeException x) x := by
  have hread := parses_readStruct codec_wire storeException "TApplicationException"
    (exceptionFields x) (valid_exceptionFields h)
    (fun this f hf => parses_onExceptionField this (valid_exceptionFields h f hf)) ⟨0, none⟩
  rwa [foldl_exceptionFields] at hread

theorem shrinks_readException : Shrinks Throwable.endless protocol.readException := by
  change Shrinks _ (readStruct wire onExceptionField ⟨0, none⟩)
  refine shrinks_readStruct codec_wire (fun this field => ?_) _
  rw [onExceptionField]
  split_ifs
  · exact shrinks_caseString codec_wire _ this field
  · exact shrinks_caseI32 codec_wire _ this field
  · exact shrinks_caseDefault codec_wire this field

theorem lawful : protocol.Lawful where
  __ := codec_wire
  exception := parses_readException
  shrinks_exception := shrinks_readException

end SbtExample.Thrift.Binary
