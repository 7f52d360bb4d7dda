import SbtExample.Foundations.JavaText
import SbtExample.Foundations.Thrift

/-! # The structs of the `Haver` service

The generated argument and result structs of `Haver.java`: their fields with the bits that say
which of them are set, `read`, `write`, and the comparisons of `TBase`. The classes that differ in
their name only share a definition.
-/
set_option autoImplicit false
set_option maxHeartbeats 250000

namespace SbtExample.Haver
open Thrift Reader

/-! ## Structs without fields: `hi_args`, `blocking_call_args` -/

structure NoArgs where
  deriving DecidableEq

abbrev HiArgs : Type := NoArgs
abbrev BlockingCallArgs : Type := NoArgs

section NoArgs
variable (p : TProtocol)

def NoArgs.read (this : NoArgs) : TReader NoArgs := readStruct p (caseDefault p) this

def NoArgs.writeAs (name : String) : Bytes :=
  p.writeStructBegin name ++ p.writeFieldStop ++ p.writeStructEnd

def HiArgs.read (this : HiArgs) : TReader HiArgs := NoArgs.read p this
def HiArgs.write (_ : HiArgs) : Bytes := NoArgs.writeAs p "hi_args"
def BlockingCallArgs.read (this : BlockingCallArgs) : TReader BlockingCallArgs := NoArgs.read p this
def BlockingCallArgs.write (_ : BlockingCallArgs) : Bytes := NoArgs.writeAs p "blocking_call_args"

end NoArgs

def NoArgs.equals (_ _ : NoArgs) : Bool := true
def NoArgs.compareTo (_ _ : NoArgs) : Ordering := .eq

/-! ## `add_args` -/

/-- `aIsSet` and `bIsSet` are the bits of `__isset_bit_vector`. -/
structure AddArgs where
  a : Int32 := 0
  b : Int32 := 0
  aIsSet : Bool := false
  bIsSet : Bool := false
  deriving DecidableEq

namespace AddArgs

def setA (this : AddArgs) (a : Int32) : AddArgs := { this with a := a, aIsSet := true }
def setB (this : AddArgs) (b : Int32) : AddArgs := { this with b := b, bIsSet := true }

/-- `unsetA` keeps the value of the field. -/
def unsetA (this : AddArgs) : AddArgs := { this with aIsSet := false }
def unsetB (this : AddArgs) : AddArgs := { this with bIsSet := false }

section
variable (p : TProtocol)

/-- The `switch` of `read`. -/
def onField (this : AddArgs) (field : TField) : TReader AddArgs :=
  if field.id = 1 then caseI32 p this.setA this field
  else if field.id = 2 then caseI32 p this.setB this field
  else caseDefault p this field

def read (this : AddArgs) : TReader AddArgs := readStruct p (onField p) this

/-- Both fields are written, set or not. -/
def write (this : AddArgs) : Bytes :=
  p.writeStructBegin "add_args"
    ++ (p.writeFieldBegin ⟨"a", TType.i32, 1⟩ ++ p.writeI32 this.a ++ p.writeFieldEnd)
    ++ (p.writeFieldBegin ⟨"b", TType.i32, 2⟩ ++ p.writeI32 this.b ++ p.writeFieldEnd)
    ++ p.writeFieldStop ++ p.writeStructEnd

end

/-- `equals` looks at the values only. -/
def equals (this that : AddArgs) : Bool := decide (this.a = that.a) && decide (this.b = that.b)

/-- `compareTo` looks at the bits first, and at a value that is set on both sides. -/
def compareTo (this other : AddArgs) : Ordering :=
  (compare this.aIsSet other.aIsSet).then <|
    (if this.aIsSet then compare this.a other.a else .eq).then <|
      (compare this.bIsSet other.bIsSet).then <|
        if this.bIsSet then compare this.b other.b else .eq

end AddArgs

/-! ## `add_result`, `blocking_call_result` -/

structure I32Result where
  success : Int32 := 0
  successIsSet : Bool := false
  deriving DecidableEq

abbrev AddResult : Type := I32Result
abbrev BlockingCallResult : Type := I32Result

namespace I32Result

def setSuccess (this : I32Result) (success : Int32) : I32Result :=
  { this with success := success, successIsSet := true }

def setSuccessIsSet (this : I32Result) (value : Bool) : I32Result :=
  { this with successIsSet := value }

/-- `isSetSuccess` and `success` in one. -/
def success? (this : I32Result) : Option Int32 :=
  if this.successIsSet then some this.success else none

section
variable (p : TProtocol)

def onField (this : I32Result) (field : TField) : TReader I32Result :=
  if field.id = 0 then caseI32 p this.setSuccess this field
  else caseDefault p this field

def read (this : I32Result) : TReader I32Result := readStruct p (onField p) this

def writeAs (name : String) (this : I32Result) : Bytes :=
  p.writeStructBegin name
    ++ (if this.successIsSet then
          p.writeFieldBegin ⟨"success", TType.i32, 0⟩ ++ p.writeI32 this.success ++ p.writeFieldEnd
        else [])
    ++ p.writeFieldStop ++ p.writeStructEnd

end

def equals (this that : I32Result) : Bool := decide (this.success = that.success)

def compareTo (this other : I32Result) : Ordering :=
  (compare this.successIsSet other.successIsSet).then <|
    if this.successIsSet then compare this.success other.success else .eq

end I32Result

section
variable (p : TProtocol)

def AddResult.read (this : AddResult) : TReader AddResult := I32Result.read p this
def AddResult.write (this : AddResult) : Bytes := I32Result.writeAs p "add_result" this
def BlockingCallResult.read (this : BlockingCallResult) : TReader BlockingCallResult :=
  I32Result.read p this
def BlockingCallResult.write (this : BlockingCallResult) : Bytes :=
  I32Result.writeAs p "blocking_call_result" this

end

/-! ## `hi_result` -/

/-- `success` is set when it is not `null`. -/
structure HiResult where
  success : Option String := none
  deriving DecidableEq

namespace HiResult

def isSetSuccess (this : HiResult) : Bool := this.success.isSome

def setSuccess (this : HiResult) (success : String) : HiResult :=
  { this with success := some success }

def setSuccessIsSet (this : HiResult) (value : Bool) : HiResult :=
  if value then this else { this with success := none }

section
variable (p : TProtocol)

def onField (this : HiResult) (field : TField) : TReader HiResult :=
  if field.id = 0 then caseString p this.setSuccess this field
  else caseDefault p this field

def read (this : HiResult) : TReader HiResult := readStruct p (onField p) this

def write (this : HiResult) : Bytes :=
  p.writeStructBegin "hi_result"
    ++ (match this.success with
        | some success =>
          p.writeFieldBegin ⟨"success", TType.string, 0⟩ ++ p.writeString success ++ p.writeFieldEnd
        | none => [])
    ++ p.writeFieldStop ++ p.writeStructEnd

end

def equals (this that : HiResult) : Bool := decide (this.success = that.success)

def compareTo (this other : HiResult) : Ordering :=
  (compare this.isSetSuccess other.isSetSuccess).then <|
    match this.success, other.success with
    | some success, some otherSuccess => JavaText.compareTo success otherSuccess
    | _, _ => .eq

end HiResult

/-! ## What is on the wire -/

section Wire
variable {p : TProtocol}

theorem NoArgs.writeAs_eq (name : String) : NoArgs.writeAs p name = writeStruct p name [] := by
  simp [NoArgs.writeAs, writeStruct]

theorem AddArgs.write_eq (x : AddArgs) :
    x.write p = writeStruct p "add_args" [⟨"a", 1, .i32 x.a⟩, ⟨"b", 2, .i32 x.b⟩] := by
  simp [AddArgs.write, writeStruct, WireField.write, WireField.desc, WireValue.write,
    WireValue.type]

def I32Result.fields (x : I32Result) : List WireField :=
  if x.successIsSet then [⟨"success", 0, .i32 x.success⟩] else []

theorem I32Result.writeAs_eq (name : String) (x : I32Result) :
    x.writeAs p name = writeStruct p name x.fields := by
  obtain ⟨n, _ | _⟩ := x <;>
    simp [I32Result.writeAs, I32Result.fields, writeStruct, WireField.write, WireField.desc,
      WireValue.write, WireValue.type]

def HiResult.fields (x : HiResult) : List WireField :=
  x.success.toList.map fun s => ⟨"success", 0, .string s⟩

theorem HiResult.write_eq (x : HiResult) : x.write p = writeStruct p "hi_result" x.fields := by
  obtain ⟨_ | s⟩ := x <;>
    simp [HiResult.write, HiResult.fields, writeStruct, WireField.write, WireField.desc,
      WireValue.write, WireValue.type]

end Wire

/-! ## Reading -/

/-- The last field with this id and type decides. -/
def lastI32 (id : Int16) (fields : List WireField) : Option Int32 :=
  (fields.filterMap fun f =>
    if f.id = id then f.value.storeI32 some none else none).getLast?

def lastString (id : Int16) (fields : List WireField) : Option String :=
  (fields.filterMap fun f =>
    if f.id = id then f.value.storeString some none else none).getLast?

theorem getLast?_filterMap_cons {α β : Type} (g : α → Option β) (x : α) (xs : List α) :
    ((x :: xs).filterMap g).getLast? = (xs.filterMap g).getLast?.or (g x) := by
  rw [List.filterMap_cons]
  cases hx : g x with
  | none => rw [Option.or_none]
  | some b =>
    cases hxs : xs.filterMap g with
    | nil => rfl
    | cons c cs => rw [List.getLast?_cons_cons, List.getLast?_cons]; rfl

namespace AddArgs

/-- What the `switch` makes of a field. -/
def store (this : AddArgs) (f : WireField) : AddArgs :=
  if f.id = 1 then f.value.storeI32 this.setA this
  else if f.id = 2 then f.value.storeI32 this.setB this
  else this

theorem store_eq (this : AddArgs) (f : WireField) :
    this.store f
      = ⟨(if f.id = 1 then f.value.storeI32 some none else none).getD this.a,
          (if f.id = 2 then f.value.storeI32 some none else none).getD this.b,
          this.aIsSet || (if f.id = 1 then f.value.storeI32 some none else none).isSome,
          this.bIsSet || (if f.id = 2 then f.value.storeI32 some none else none).isSome⟩ := by
  obtain ⟨name, id, v⟩ := f
  rw [store]
  by_cases h1 : id = 1
  · have h2 : id ≠ 2 := by
      rw [h1]
      decide
    cases v <;> simp [h1, WireValue.storeI32, setA]
  · by_cases h2 : id = 2
    · cases v <;> simp [h2, WireValue.storeI32, setB]
    · simp [h1, h2]

theorem foldl_store (fields : List WireField) (this : AddArgs) :
    fields.foldl store this
      = ⟨(lastI32 1 fields).getD this.a, (lastI32 2 fields).getD this.b,
          this.aIsSet || (lastI32 1 fields).isSome, this.bIsSet || (lastI32 2 fields).isSome⟩ := by
  induction fields generalizing this with
  | nil => simp [lastI32]
  | cons f fields ih =>
    have hcons (id : Int16) : lastI32 id (f :: fields)
        = (lastI32 id fields).or (if f.id = id then f.value.storeI32 some none else none) :=
      getLast?_filterMap_cons _ f fields
    rw [List.foldl_cons, ih, hcons, hcons, store_eq]
    cases lastI32 1 fields <;> cases lastI32 2 fields <;> simp

theorem parses_onField {p : TProtocol} (codec : p.Codec) (this : AddArgs) {f : WireField}
    (h : f.value.Valid p) : Parses (onField p this f.header) (f.value.write p) (this.store f) := by
  change Parses (if f.id = 1 then _ else if f.id = 2 then _ else _) _
    (if f.id = 1 then _ else if f.id = 2 then _ else _)
  split_ifs
  · exact parses_caseI32 codec _ this h
  · exact parses_caseI32 codec _ this h
  · exact parses_caseDefault codec this h

end AddArgs

namespace I32Result

def store (this : I32Result) (f : WireField) : I32Result :=
  if f.id = 0 then f.value.storeI32 this.setSuccess this else this

theorem foldl_store (fields : List WireField) (this : I32Result) :
    fields.foldl store this
      = ⟨(lastI32 0 fields).getD this.success, this.successIsSet || (lastI32 0 fields).isSome⟩ := by
  induction fields generalizing this with
  | nil => simp [lastI32]
  | cons f fields ih =>
    have hcons : lastI32 0 (f :: fields)
        = (lastI32 0 fields).or (if f.id = 0 then f.value.storeI32 some none else none) :=
      getLast?_filterMap_cons _ f fields
    rw [List.foldl_cons, ih, hcons, store]
    obtain ⟨name, id, v⟩ := f
    by_cases h : id = 0 <;> cases v <;> cases lastI32 0 fields <;>
      simp [h, WireValue.storeI32, setSuccess]

theorem parses_onField {p : TProtocol} (codec : p.Codec) (this : I32Result) {f : WireField}
    (h : f.value.Valid p) : Parses (onField p this f.header) (f.value.write p) (this.store f) := by
  change Parses (if f.id = 0 then _ else _) _ (if f.id = 0 then _ else _)
  split_ifs
  · exact parses_caseI32 codec _ this h
  · exact parses_caseDefault codec this h

end I32Result

namespace HiResult

def store (this : HiResult) (f : WireField) : HiResult :=
  if f.id = 0 then f.value.storeString this.setSuccess this else this

theorem foldl_store (fields : List WireField) (this : HiResult) :
    fields.foldl store this = ⟨(lastString 0 fields).or this.success⟩ := by
  induction fields generalizing this with
  | nil => rfl
  | cons f fields ih =>
    have hcons : lastString 0 (f :: fields)
        = (lastString 0 fields).or (if f.id = 0 then f.value.storeString some none else none) :=
      getLast?_filterMap_cons _ f fields
    rw [List.foldl_cons, ih, hcons, store]
    obtain ⟨name, id, v⟩ := f
    by_cases h : id = 0 <;> cases v <;> cases lastString 0 fields <;>
      simp [h, WireValue.storeString, setSuccess]

theorem parses_onField {p : TProtocol} (codec : p.Codec) (this : HiResult) {f : WireField}
    (h : f.value.Valid p) : Parses (onField p this f.header) (f.value.write p) (this.store f) := by
  change Parses (if f.id = 0 then _ else _) _ (if f.id = 0 then _ else _)
  split_ifs
  · exact parses_caseString codec _ this h
  · exact parses_caseDefault codec this h

end HiResult

section Reads
variable {p : TProtocol} (codec : p.Codec) (name : String) (fields : List WireField)
  (valid : ∀ f ∈ fields, f.value.Valid p)
include codec valid

theorem NoArgs.parses_read (this : NoArgs) :
    Parses (NoArgs.read p this) (writeStruct p name fields) this := by
  have h := parses_readStruct codec (fun (this : NoArgs) _ => this) name fields valid
    (fun this f hf => parses_caseDefault codec this (valid f hf)) this
  rwa [show fields.foldl (fun (this : NoArgs) _ => this) this = this from rfl] at h

theorem AddArgs.parses_read (this : AddArgs) :
    Parses (AddArgs.read p this) (writeStruct p name fields)
      ⟨(lastI32 1 fields).getD this.a, (lastI32 2 fields).getD this.b,
        this.aIsSet || (lastI32 1 fields).isSome, this.bIsSet || (lastI32 2 fields).isSome⟩ := by
  rw [← AddArgs.foldl_store]
  exact parses_readStruct codec AddArgs.store name fields valid
    (fun this f hf => AddArgs.parses_onField codec this (valid f hf)) this

theorem I32Result.parses_read (this : I32Result) :
    Parses (I32Result.read p this) (writeStruct p name fields)
      ⟨(lastI32 0 fields).getD this.success, this.successIsSet || (lastI32 0 fields).isSome⟩ := by
  rw [← I32Result.foldl_store]
  exact parses_readStruct codec I32Result.store name fields valid
    (fun this f hf => I32Result.parses_onField codec this (valid f hf)) this

theorem HiResult.parses_read (this : HiResult) :
    Parses (HiResult.read p this) (writeStruct p name fields)
      ⟨(lastString 0 fields).or this.success⟩ := by
  rw [← HiResult.foldl_store]
  exact parses_readStruct codec HiResult.store name fields valid
    (fun this f hf => HiResult.parses_onField codec this (valid f hf)) this

end Reads

end SbtExample.Haver
