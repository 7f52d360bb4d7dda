import SbtExample.Foundations.Reader

/-! # Thrift protocols

The calls that generated Thrift code makes on a `TProtocol`, as a parameter: the writers give the
bytes they append, the readers take bytes from the front of the input. `Lawful` is what the
generated code relies on: each reader takes back what its writer wrote, `skip` passes over one
value of the announced type, and a field header takes at least a byte. The rules read a whole struct
from these.
-/
set_option autoImplicit false
set_option maxHeartbeats 250000

namespace SbtExample.Thrift
open Reader

/-! ## Constants and headers -/

namespace TType
def stop : UInt8 := 0
def i32 : UInt8 := 8
def string : UInt8 := 11
def struct : UInt8 := 12
end TType

namespace TMessageType
def call : UInt8 := 1
def reply : UInt8 := 2
def exception : UInt8 := 3
end TMessageType

structure TMessage where
  name : String
  type : UInt8
  seqid : Int32
  deriving DecidableEq

/-- The type of a field that is read is any byte. -/
structure TField where
  name : String
  type : UInt8
  id : Int16
  deriving DecidableEq

/-- The field as it is read back: the name is not on the wire. -/
def TField.unnamed (f : TField) : TField := { f with name := "" }

/-- `null` is a message too. -/
structure TApplicationException where
  type : Int32
  message : Option String
  deriving DecidableEq

namespace TApplicationException
def unknownMethod : Int32 := 1
def badSequenceId : Int32 := 4
def missingResult : Int32 := 5
def internalError : Int32 := 6
def protocolError : Int32 := 7
end TApplicationException

/-- What the code throws: `TProtocolException`, `TApplicationException`, or anything else. A loop
that would not end is `endless`. -/
inductive Throwable
  | protocol (message : Option String)
  | application (x : TApplicationException)
  | other (name : String)
  | endless
  deriving DecidableEq

abbrev TReader (α : Type) : Type := Reader Throwable α

/-! ## Protocols -/

structure TProtocol where
  writeMessageBegin : TMessage → Bytes
  writeMessageEnd : Bytes
  writeStructBegin : String → Bytes
  writeStructEnd : Bytes
  writeFieldBegin : TField → Bytes
  writeFieldEnd : Bytes
  writeFieldStop : Bytes
  writeI32 : Int32 → Bytes
  writeString : String → Bytes
  readMessageBegin : TReader TMessage
  readMessageEnd : TReader Unit
  readStructBegin : TReader Unit
  readStructEnd : TReader Unit
  readFieldBegin : TReader TField
  readFieldEnd : TReader Unit
  readI32 : TReader Int32
  readString : TReader String
  /-- `TProtocolUtil.skip`. -/
  skip : UInt8 → TReader Unit
  /-- `TApplicationException.write` and `TApplicationException.read`. -/
  writeException : TApplicationException → Bytes
  readException : TReader TApplicationException

/-- The UTF-8 form of a text is a byte array, which has fewer than `2 ^ 31` elements. -/
def Fits (s : String) : Prop := s.utf8ByteSize < 2 ^ 31

instance (s : String) : Decidable (Fits s) := inferInstanceAs (Decidable (_ < _))

theorem utf8ByteSize_ofList_le (cs : List Char) :
    (String.ofList cs).utf8ByteSize ≤ 4 * cs.length := by
  induction cs with
  | nil => exact String.utf8ByteSize_empty.le
  | cons c cs ih =>
    have hc := c.utf8Size_le_four
    rw [String.ofList_cons, String.utf8ByteSize_append, String.utf8ByteSize_singleton,
      List.length_cons]
    omega

theorem Fits.of_length {s : String} (h : s.length < 2 ^ 29) : Fits s := by
  have hsize := utf8ByteSize_ofList_le s.toList
  rw [String.ofList_toList, String.length_toList] at hsize
  rw [Fits]
  omega

/-- A value on the wire: one of the types that the generated code asks for, or another one with its
bytes. A `string` is a text; bytes that are no UTF-8 are not considered. -/
inductive WireValue
  | i32 (n : Int32)
  | string (s : String)
  | other (type : UInt8) (body : Bytes)

structure WireField where
  name : String
  id : Int16
  value : WireValue

section Writing
variable (p : TProtocol)

def WireValue.type : WireValue → UInt8
  | .i32 _ => TType.i32
  | .string _ => TType.string
  | .other type _ => type

def WireValue.write : WireValue → Bytes
  | .i32 n => p.writeI32 n
  | .string s => p.writeString s
  | .other _ body => body

def WireField.desc (f : WireField) : TField := ⟨f.name, f.value.type, f.id⟩

def WireField.write (f : WireField) : Bytes :=
  p.writeFieldBegin f.desc ++ f.value.write p ++ p.writeFieldEnd

def writeStruct (name : String) (fields : List WireField) : Bytes :=
  p.writeStructBegin name ++ (fields.flatMap (WireField.write p) ++ p.writeFieldStop)
    ++ p.writeStructEnd

/-- The value is one that `skip` passes over, and its type is neither the stop byte nor one of the
types that have a constructor of their own. -/
def WireValue.Valid : WireValue → Prop
  | .i32 _ => True
  | .string s => Fits s
  | .other type body =>
      type ≠ TType.stop ∧ type ≠ TType.i32 ∧ type ≠ TType.string ∧ Parses (p.skip type) body ()

end Writing

/-- A value of a type that has a constructor of its own. -/
def WireValue.Plain : WireValue → Prop
  | .i32 _ => True
  | .string s => Fits s
  | .other _ _ => False

/-- The message of a `TApplicationException` is a text like any other. -/
def TApplicationException.Fits (x : TApplicationException) : Prop :=
  ∀ s, x.message = some s → Thrift.Fits s

/-- What the readers and the writers agree on, `TApplicationException` apart. -/
structure TProtocol.Codec (p : TProtocol) : Prop where
  message : ∀ m, Fits m.name → m.type < 128 →
    Parses p.readMessageBegin (p.writeMessageBegin m) m
  messageEnd : Parses p.readMessageEnd p.writeMessageEnd ()
  structBegin : ∀ name, Parses p.readStructBegin (p.writeStructBegin name) ()
  structEnd : Parses p.readStructEnd p.writeStructEnd ()
  field : ∀ f, f.type ≠ TType.stop →
    Parses p.readFieldBegin (p.writeFieldBegin f) f.unnamed
  fieldEnd : Parses p.readFieldEnd p.writeFieldEnd ()
  fieldStop : Parses p.readFieldBegin p.writeFieldStop ⟨"", TType.stop, 0⟩
  i32 : ∀ n, Parses p.readI32 (p.writeI32 n) n
  string : ∀ s, Fits s → Parses p.readString (p.writeString s) s
  skipI32 : ∀ n, Parses (p.skip TType.i32) (p.writeI32 n) ()
  skipString : ∀ s, Fits s → Parses (p.skip TType.string) (p.writeString s) ()
  skipStruct : ∀ name fields, (∀ f ∈ fields, f.value.Plain) →
    Parses (p.skip TType.struct) (writeStruct p name fields) ()
  fieldBegin_lt : ∀ {s t : Bytes} {f : TField}, p.readFieldBegin s = .ok f t → t.length < s.length
  shrinks_message : Shrinks .endless p.readMessageBegin
  shrinks_messageEnd : Shrinks .endless p.readMessageEnd
  shrinks_structBegin : Shrinks .endless p.readStructBegin
  shrinks_structEnd : Shrinks .endless p.readStructEnd
  shrinks_field : Shrinks .endless p.readFieldBegin
  shrinks_fieldEnd : Shrinks .endless p.readFieldEnd
  shrinks_i32 : Shrinks .endless p.readI32
  shrinks_string : Shrinks .endless p.readString
  shrinks_skip : ∀ type, Shrinks .endless (p.skip type)

structure TProtocol.Lawful (p : TProtocol) : Prop extends p.Codec where
  exception : ∀ x : TApplicationException, x.Fits →
    Parses p.readException (p.writeException x) x
  shrinks_exception : Shrinks .endless p.readException

/-! ## Reading structs -/

section Reading
variable {α : Type} (p : TProtocol)

/-- A case of the `switch` over field ids: the field is stored when it has the wanted type and is
passed over otherwise. -/
def caseI32 (set : Int32 → α) (this : α) (field : TField) : TReader α :=
  if field.type = TType.i32 then do
    let n ← p.readI32
    return set n
  else do
    p.skip field.type
    return this

def caseString (set : String → α) (this : α) (field : TField) : TReader α :=
  if field.type = TType.string then do
    let s ← p.readString
    return set s
  else do
    p.skip field.type
    return this

/-- The `default` case. -/
def caseDefault (this : α) (field : TField) : TReader α := do
  p.skip field.type
  return this

/-- A round of the loop over the fields, with the `switch` as a parameter. -/
def readField (onField : α → TField → TReader α) (this : α) : TReader (α ⊕ α) := do
  let field ← p.readFieldBegin
  if field.type = TType.stop then return .inr this
  else do
    let this ← onField this field
    p.readFieldEnd
    return .inl this

def readStruct (onField : α → TField → TReader α) (this : α) : TReader α := do
  p.readStructBegin
  let this ← forever .endless (readField p onField) this
  p.readStructEnd
  return this

end Reading

section Rules
variable {α : Type} {p : TProtocol}

def WireField.header (f : WireField) : TField := f.desc.unnamed

/-- What storing the `i32` values does to the object. -/
def WireValue.storeI32 (set : Int32 → α) (this : α) : WireValue → α
  | .i32 n => set n
  | _ => this

def WireValue.storeString (set : String → α) (this : α) : WireValue → α
  | .string s => set s
  | _ => this

theorem WireValue.Valid.type_ne_stop {v : WireValue} (h : v.Valid p) : v.type ≠ TType.stop := by
  cases v with
  | i32 n => exact (by decide : TType.i32 ≠ TType.stop)
  | string s => exact (by decide : TType.string ≠ TType.stop)
  | other type body => exact h.1

theorem WireValue.Valid.skip (codec : p.Codec) {v : WireValue} (h : v.Valid p) :
    Parses (p.skip v.type) (v.write p) () := by
  cases v with
  | i32 n => exact codec.skipI32 n
  | string s => exact codec.skipString s h
  | other type body => exact h.2.2.2

theorem parses_caseDefault (codec : p.Codec) (this : α) {f : WireField} (h : f.value.Valid p) :
    Parses (caseDefault p this f.header) (f.value.write p) this :=
  (h.skip codec).bind_pure (.pure this)

theorem parses_caseI32 (codec : p.Codec) (set : Int32 → α) (this : α) {f : WireField}
    (h : f.value.Valid p) :
    Parses (caseI32 p set this f.header) (f.value.write p) (f.value.storeI32 set this) := by
  obtain ⟨name, id, v⟩ := f
  cases v with
  | i32 n =>
    change Parses (if TType.i32 = TType.i32 then _ else _) _ _
    rw [if_pos rfl]
    exact (codec.i32 n).bind_pure (.pure (set n))
  | string s =>
    change Parses (if TType.string = TType.i32 then _ else _) _ _
    rw [if_neg (by decide)]
    exact (h.skip codec).bind_pure (.pure this)
  | other type body =>
    change Parses (if type = TType.i32 then _ else _) _ _
    rw [if_neg h.2.1]
    exact (h.skip codec).bind_pure (.pure this)

theorem parses_caseString (codec : p.Codec) (set : String → α) (this : α) {f : WireField}
    (h : f.value.Valid p) :
    Parses (caseString p set this f.header) (f.value.write p) (f.value.storeString set this) := by
  obtain ⟨name, id, v⟩ := f
  cases v with
  | i32 n =>
    change Parses (if TType.i32 = TType.string then _ else _) _ _
    rw [if_neg (by decide)]
    exact (h.skip codec).bind_pure (.pure this)
  | string s =>
    change Parses (if TType.string = TType.string then _ else _) _ _
    rw [if_pos rfl]
    exact (codec.string s h).bind_pure (.pure (set s))
  | other type body =>
    change Parses (if type = TType.string then _ else _) _ _
    rw [if_neg h.2.2.1]
    exact (h.skip codec).bind_pure (.pure this)

/-! ### Structs -/

section Struct
variable {onField : α → TField → TReader α}

theorem parses_readField (codec : p.Codec) {accept : α → WireField → α} {this : α}
    {f : WireField} (h : f.value.Valid p)
    (hf : Parses (onField this f.header) (f.value.write p) (accept this f)) :
    Parses (readField p onField this) (f.write p) (.inl (accept this f)) := by
  rw [readField, WireField.write, List.append_assoc]
  refine (codec.field f.desc h.type_ne_stop).bind ?_
  rw [if_neg (show f.desc.unnamed.type ≠ TType.stop from h.type_ne_stop)]
  exact hf.bind (codec.fieldEnd.bind_pure (.pure _))

theorem parses_readField_stop (codec : p.Codec) (this : α) :
    Parses (readField p onField this) p.writeFieldStop (.inr this) := by
  refine codec.fieldStop.bind_pure ?_
  rw [if_pos rfl]
  exact .pure _

theorem WireField.write_ne_nil (codec : p.Codec) {f : WireField} (h : f.value.Valid p) :
    f.write p ≠ [] := by
  have hread := codec.field f.desc h.type_ne_stop []
  rw [List.append_nil] at hread
  have hlt := codec.fieldBegin_lt hread
  intro hnil
  rw [WireField.write, List.append_assoc, List.append_eq_nil_iff] at hnil
  rw [hnil.1] at hlt
  exact Nat.not_lt_zero _ hlt

/-- A struct is read as the fold of what the `switch` does with each field. -/
theorem parses_readStruct (codec : p.Codec) (accept : α → WireField → α) (name : String)
    (fields : List WireField) (valid : ∀ f ∈ fields, f.value.Valid p)
    (hf : ∀ this, ∀ f ∈ fields, Parses (onField this f.header) (f.value.write p) (accept this f))
    (this : α) :
    Parses (readStruct p onField this) (writeStruct p name fields) (fields.foldl accept this) := by
  rw [readStruct, writeStruct, List.append_assoc]
  refine (codec.structBegin name).bind (Parses.bind ?_ (codec.structEnd.bind_pure (.pure _)))
  exact Parses.forever accept id fields
    (fun this f hmem => parses_readField codec (valid f hmem) (hf this f hmem))
    (fun f hmem => WireField.write_ne_nil codec (valid f hmem)) (parses_readField_stop codec) this

end Struct

/-! ### Any input -/

theorem shrinks_caseDefault (codec : p.Codec) (this : α) (field : TField) :
    Shrinks .endless (caseDefault p this field) :=
  (codec.shrinks_skip field.type).bind fun _ => .pure this

theorem shrinks_caseI32 (codec : p.Codec) (set : Int32 → α) (this : α) (field : TField) :
    Shrinks .endless (caseI32 p set this field) := by
  rw [caseI32]
  split
  · exact codec.shrinks_i32.bind fun n => .pure (set n)
  · exact (codec.shrinks_skip field.type).bind fun _ => .pure this

theorem shrinks_caseString (codec : p.Codec) (set : String → α) (this : α) (field : TField) :
    Shrinks .endless (caseString p set this field) := by
  rw [caseString]
  split
  · exact codec.shrinks_string.bind fun s => .pure (set s)
  · exact (codec.shrinks_skip field.type).bind fun _ => .pure this

/-- The loop over the fields ends on every input: each round takes a field header. -/
theorem shrinks_readStruct (codec : p.Codec) {onField : α → TField → TReader α}
    (h : ∀ this field, Shrinks .endless (onField this field)) (this : α) :
    Shrinks .endless (readStruct p onField this) := by
  refine codec.shrinks_structBegin.bind fun _ => Shrinks.bind ?_ fun _ =>
    codec.shrinks_structEnd.bind fun _ => .pure _
  refine Shrinks.forever (fun this => ?_) (fun this this' s t ht => ?_) this
  · refine codec.shrinks_field.bind fun field => ?_
    split
    · exact .pure _
    · exact (h this field).bind fun _ => codec.shrinks_fieldEnd.bind fun _ => .pure _
  · obtain ⟨field, u, hfield, hrest⟩ := bind_eq_ok ht
    refine lt_of_le_of_lt ?_ (codec.fieldBegin_lt hfield)
    split at hrest
    · cases hrest
    · exact ((h this field).bind fun _ =>
        codec.shrinks_fieldEnd.bind fun _ => .pure _).length_le hrest

end Rules

end SbtExample.Thrift
