import SbtExample.Foundations.ThriftBinary
import SbtExample.Haver.Structs

/-! # Structs on the wire

What `read` makes of any struct a peer may send, what is left of an object that was written and
read back, the order that `compareTo` puts on the objects, and which of them the wire tells apart.
-/
set_option autoImplicit false
set_option maxHeartbeats 250000

namespace SbtExample.Haver
open Thrift Reader

/-! ## Any list of fields -/

/-- The fields of a struct may come in any order, more than once, under unknown ids and with
unexpected types: the last field with the id and the type of a member decides it. -/
theorem read_any_fields {p : TProtocol} (lawful : p.Lawful) (name : String)
    (fields : List WireField) (valid : ∀ f ∈ fields, f.value.Valid p) :
    Parses (HiArgs.read p {}) (writeStruct p name fields) {} ∧
      Parses (BlockingCallArgs.read p {}) (writeStruct p name fields) {} ∧
      Parses (AddArgs.read p {}) (writeStruct p name fields)
        ⟨(lastI32 1 fields).getD 0, (lastI32 2 fields).getD 0,
          (lastI32 1 fields).isSome, (lastI32 2 fields).isSome⟩ ∧
      Parses (HiResult.read p {}) (writeStruct p name fields) ⟨lastString 0 fields⟩ ∧
      Parses (AddResult.read p {}) (writeStruct p name fields)
        ⟨(lastI32 0 fields).getD 0, (lastI32 0 fields).isSome⟩ ∧
      Parses (BlockingCallResult.read p {}) (writeStruct p name fields)
        ⟨(lastI32 0 fields).getD 0, (lastI32 0 fields).isSome⟩ := by
  have codec := lawful.toCodec
  have hadd := AddArgs.parses_read codec name fields valid {}
  have hhi := HiResult.parses_read codec name fields valid {}
  have hresult := I32Result.parses_read codec name fields valid {}
  simp only [Bool.false_or, Option.or_none] at hadd hhi hresult
  have hno := NoArgs.parses_read codec name fields valid {}
  exact ⟨hno, hno, hadd, hhi, hresult, hresult⟩

/-- A newer peer sends an unknown field and a second `a`, and `b` is a byte. -/
def newerFields : List WireField :=
  [⟨"c", 9, .string "new"⟩, ⟨"a", 1, .i32 5⟩, ⟨"b", 2, .other 3 [7]⟩, ⟨"a", 1, .i32 (-1)⟩]

theorem parses_skip_byte (b : UInt8) : Parses (Binary.protocol.skip 3) [b] () := by
  change Parses (Binary.skip 3) [b] ()
  rw [Binary.skip_eq, Binary.skipBelow, if_pos (.inr rfl)]
  exact (Binary.parses_readAll [b]).bind_pure (.pure ())

theorem newerFields_valid : ∀ f ∈ newerFields, f.value.Valid Binary.protocol := by
  simp only [newerFields, List.mem_cons, List.not_mem_nil, or_false, forall_eq_or_imp, forall_eq]
  exact ⟨(by decide +kernel : Fits "new"), trivial,
    ⟨by decide, by decide, by decide, parses_skip_byte 7⟩, trivial⟩

theorem read_any_fields_newer :
    Parses (AddArgs.read Binary.protocol {}) (writeStruct Binary.protocol "add_args" newerFields)
      ⟨-1, 0, true, false⟩ :=
  (read_any_fields Binary.lawful "add_args" newerFields newerFields_valid).2.2.1

/-! ## Round trips -/

section RoundTrip
variable {p : TProtocol} (codec : p.Codec)
include codec

theorem NoArgs.parses_writeAs (name : String) (this : NoArgs) :
    Parses (NoArgs.read p this) (NoArgs.writeAs p name) this := by
  rw [NoArgs.writeAs_eq]
  exact NoArgs.parses_read codec name [] (fun f hf => (List.not_mem_nil hf).elim) this

theorem AddArgs.parses_write (x : AddArgs) :
    Parses (AddArgs.read p {}) (x.write p) ⟨x.a, x.b, true, true⟩ := by
  rw [AddArgs.write_eq]
  refine AddArgs.parses_read codec "add_args" _ (fun f hf => ?_) {}
  simp only [List.mem_cons, List.not_mem_nil, or_false] at hf
  rcases hf with rfl | rfl <;> trivial

theorem I32Result.parses_writeAs (name : String) (x : I32Result) :
    Parses (I32Result.read p {}) (x.writeAs p name) (if x.successIsSet then x else {}) := by
  rw [I32Result.writeAs_eq]
  have h := I32Result.parses_read codec name x.fields (fun f hf => ?_) {}
  · obtain ⟨n, _ | _⟩ := x <;> exact h
  · obtain ⟨n, _ | _⟩ := x
    · exact (List.not_mem_nil hf).elim
    · rw [List.mem_singleton.mp hf]
      trivial

theorem HiResult.parses_write (x : HiResult) (fits : ∀ s, x.success = some s → Fits s) :
    Parses (HiResult.read p {}) (x.write p) x := by
  rw [HiResult.write_eq]
  have h := HiResult.parses_read codec "hi_result" x.fields (fun f hf => ?_) {}
  · obtain ⟨_ | s⟩ := x <;> exact h
  · obtain ⟨s, hs, rfl⟩ := List.mem_map.mp hf
    exact fits s (Option.mem_toList.mp hs)

end RoundTrip

/-! ## The order of `compareTo` -/

theorem transCmp_of_eq {α : Type} {cmp key : α → α → Ordering} [Std.TransCmp key]
    (h : ∀ x y, cmp x y = key x y) : Std.TransCmp cmp := by
  rw [show cmp = key from funext fun x => funext fun y => h x y]
  infer_instance

theorem NoArgs.transCmp_compareTo : Std.TransCmp NoArgs.compareTo where
  eq_swap := rfl
  isLE_trans _ _ := rfl

namespace AddArgs

/-- A field as `compareTo` sees it: absent when its bit is not set. -/
def a? (this : AddArgs) : Option Int32 := if this.aIsSet then some this.a else none
def b? (this : AddArgs) : Option Int32 := if this.bIsSet then some this.b else none

theorem compareTo_eq (x y : AddArgs) :
    x.compareTo y = compareLex (compareOn a?) (compareOn b?) x y := by
  obtain ⟨a, b, sa, sb⟩ := x
  obtain ⟨a', b', sa', sb'⟩ := y
  cases sa <;> cases sa' <;> cases sb <;> cases sb' <;> rfl

theorem compareTo_eq_eq (x y : AddArgs) : x.compareTo y = .eq ↔ x.a? = y.a? ∧ x.b? = y.b? := by
  rw [compareTo_eq]
  simp [compareLex, compareOn]

theorem transCmp_compareTo : Std.TransCmp compareTo := transCmp_of_eq compareTo_eq

end AddArgs

namespace I32Result

theorem compareTo_eq (x y : I32Result) : x.compareTo y = compareOn success? x y := by
  obtain ⟨n, s⟩ := x
  obtain ⟨n', s'⟩ := y
  cases s <;> cases s' <;> rfl

theorem compareTo_eq_eq (x y : I32Result) : x.compareTo y = .eq ↔ x.success? = y.success? := by
  rw [compareTo_eq]
  simp [compareOn]

theorem transCmp_compareTo : Std.TransCmp compareTo := transCmp_of_eq compareTo_eq

end I32Result

namespace HiResult

/-- The text as the array that `compareTo` goes through. -/
def units? (this : HiResult) : Option (List UInt16) := this.success.map JavaText.toCharArray

theorem compareTo_eq (x y : HiResult) : x.compareTo y = compareOn units? x y := by
  obtain ⟨_ | s⟩ := x <;> obtain ⟨_ | t⟩ := y <;> rfl

theorem compareTo_eq_eq (x y : HiResult) : x.compareTo y = .eq ↔ x = y := by
  have hunits : units? x = units? y ↔ x.success = y.success :=
    (Option.map_injective JavaText.toCharArray_injective).eq_iff
  rw [compareTo_eq, compareOn, Std.LawfulEqOrd.compare_eq_iff_eq, hunits]
  obtain ⟨s⟩ := x
  obtain ⟨t⟩ := y
  rw [HiResult.mk.injEq]

theorem equals_iff (x y : HiResult) : x.equals y = true ↔ x = y := by
  obtain ⟨s⟩ := x
  obtain ⟨t⟩ := y
  simp [equals]

theorem transCmp_compareTo : Std.TransCmp compareTo := transCmp_of_eq compareTo_eq

end HiResult

theorem AddArgs.outcome_read_write {p : TProtocol} (codec : p.Codec) (x : AddArgs) :
    ∃ y : AddArgs, Parses (AddArgs.read p {}) (x.write p) y ∧ y.equals x = true ∧
      (y.compareTo x = .eq ↔ x.aIsSet = true ∧ x.bIsSet = true) := by
  refine ⟨_, AddArgs.parses_write codec x, by simp [AddArgs.equals], ?_⟩
  rw [AddArgs.compareTo_eq_eq]
  obtain ⟨a, b, sa, sb⟩ := x
  cases sa <;> cases sb <;> simp [AddArgs.a?, AddArgs.b?]

theorem I32Result.outcome_read_write {p : TProtocol} (codec : p.Codec) (name : String)
    (r : I32Result) :
    ∃ y : I32Result, Parses (I32Result.read p {}) (r.writeAs p name) y ∧ y.compareTo r = .eq ∧
      (y.equals r = true ↔ r.successIsSet = true ∨ r.success = 0) := by
  refine ⟨_, I32Result.parses_writeAs codec name r, ?_⟩
  obtain ⟨n, s⟩ := r
  rw [I32Result.compareTo_eq]
  cases s <;> simp [compareOn, I32Result.success?, I32Result.equals, eq_comm]

/-- What was written is read back: the arguments with all their bits set, the results without the
value of an unset member. So arguments stay `equals` and results stay equal for `compareTo`, and
the other comparison can tell the copy apart exactly as stated. -/
theorem read_write {p : TProtocol} (lawful : p.Lawful) (x : AddArgs) (r : AddResult)
    (c : BlockingCallResult) (h : HiResult) (fits : ∀ s, h.success = some s → Fits s) :
    (∃ y, Parses (AddArgs.read p {}) (x.write p) y ∧ y.equals x = true ∧
        (y.compareTo x = .eq ↔ x.aIsSet = true ∧ x.bIsSet = true)) ∧
      (∃ y, Parses (AddResult.read p {}) (AddResult.write p r) y ∧ y.compareTo r = .eq ∧
        (y.equals r = true ↔ r.successIsSet = true ∨ r.success = 0)) ∧
      (∃ y, Parses (BlockingCallResult.read p {}) (BlockingCallResult.write p c) y ∧
        y.compareTo c = .eq ∧ (y.equals c = true ↔ c.successIsSet = true ∨ c.success = 0)) ∧
      Parses (HiResult.read p {}) (h.write p) h ∧
      (∀ args : HiArgs, Parses (HiArgs.read p {}) (HiArgs.write p args) args) ∧
      ∀ args : BlockingCallArgs,
        Parses (BlockingCallArgs.read p {}) (BlockingCallArgs.write p args) args := by
  have codec := lawful.toCodec
  exact ⟨AddArgs.outcome_read_write codec x, I32Result.outcome_read_write codec "add_result" r,
    I32Result.outcome_read_write codec "blocking_call_result" c, HiResult.parses_write codec h fits,
    fun _ => NoArgs.parses_writeAs codec "hi_args" {},
    fun _ => NoArgs.parses_writeAs codec "blocking_call_args" {}⟩

/-- With the arguments half set: the copy is `equals` and `compareTo` tells it apart. -/
theorem read_write_unset :
    ∃ y, Parses (AddArgs.read Binary.protocol {})
        (((({} : AddArgs).setA 3).setB 4).unsetB.write Binary.protocol) y ∧
      y.compareTo (((({} : AddArgs).setA 3).setB 4).unsetB) ≠ .eq := by
  obtain ⟨y, hy, -, hcmp⟩ := (read_write Binary.lawful ((({} : AddArgs).setA 3).setB 4).unsetB {} {}
    ⟨some "hi"⟩ (fun s hs => by cases hs; decide +kernel)).1
  exact ⟨y, hy, fun h => Bool.false_ne_true (hcmp.mp h).2⟩

/-! ### Consistency with `equals` -/

theorem AddArgs.compareTo_iff_equals {x y : AddArgs} (hx : x.aIsSet = true ∧ x.bIsSet = true)
    (hy : y.aIsSet = true ∧ y.bIsSet = true) : x.compareTo y = .eq ↔ x.equals y = true := by
  rw [AddArgs.compareTo_eq_eq, AddArgs.a?, AddArgs.a?, AddArgs.b?, AddArgs.b?, if_pos hx.1,
    if_pos hx.2, if_pos hy.1, if_pos hy.2]
  simp [AddArgs.equals]

/-- `unsetA` makes a copy that only `compareTo` tells apart, a stale value one that only `equals`
does. -/
theorem AddArgs.exists_inconsistent (x : AddArgs) :
    ∃ y : AddArgs, ¬ (x.compareTo y = .eq ↔ x.equals y = true) := by
  simp only [AddArgs.compareTo_eq_eq]
  obtain ⟨a, b, sa, sb⟩ := x
  cases sa with
  | true =>
    refine ⟨AddArgs.unsetA ⟨a, b, true, sb⟩, ?_⟩
    simp [AddArgs.a?, AddArgs.unsetA, AddArgs.equals]
  | false =>
    refine ⟨⟨a + 1, b, false, sb⟩, ?_⟩
    simp [AddArgs.a?, AddArgs.b?, AddArgs.equals]

theorem I32Result.compareTo_iff_equals {x y : I32Result} (hx : x.successIsSet = true)
    (hy : y.successIsSet = true) : x.compareTo y = .eq ↔ x.equals y = true := by
  rw [I32Result.compareTo_eq_eq, I32Result.success?, I32Result.success?, if_pos hx, if_pos hy]
  simp [I32Result.equals]

theorem I32Result.exists_inconsistent (x : I32Result) :
    ∃ y : I32Result, ¬ (x.compareTo y = .eq ↔ x.equals y = true) := by
  simp only [I32Result.compareTo_eq_eq]
  obtain ⟨n, s⟩ := x
  cases s with
  | true =>
    refine ⟨I32Result.setSuccessIsSet ⟨n, true⟩ false, ?_⟩
    simp [I32Result.success?, I32Result.setSuccessIsSet, I32Result.equals]
  | false =>
    refine ⟨⟨n + 1, false⟩, ?_⟩
    simp [I32Result.success?, I32Result.equals]

/-! ### Which objects are the same on the wire -/

theorem I32Result.fields_eq (x : I32Result) :
    x.fields = x.success?.toList.map fun n => ⟨"success", 0, .i32 n⟩ := by
  obtain ⟨n, _ | _⟩ := x <;> rfl

theorem I32Result.success_of_read (x : I32Result) :
    (if x.successIsSet then x else {} : I32Result).success? = x.success? := by
  obtain ⟨n, _ | _⟩ := x <;> rfl

section Same
variable {p : TProtocol} (codec : p.Codec)
include codec

theorem AddArgs.equals_iff_write (x y : AddArgs) :
    x.equals y = true ↔ x.write p = y.write p := by
  constructor
  · intro h
    obtain ⟨ha, hb⟩ : x.a = y.a ∧ x.b = y.b := by simpa [AddArgs.equals] using h
    rw [AddArgs.write, AddArgs.write, ha, hb]
  · intro h
    have hsame := (AddArgs.parses_write codec x).unique (AddArgs.parses_write codec y) h
    simp only [AddArgs.mk.injEq] at hsame
    simp [AddArgs.equals, hsame.1, hsame.2.1]

theorem I32Result.compareTo_iff_writeAs (name : String) (x y : I32Result) :
    x.compareTo y = .eq ↔ x.writeAs p name = y.writeAs p name := by
  rw [I32Result.compareTo_eq_eq]
  constructor
  · intro h
    rw [I32Result.writeAs_eq, I32Result.writeAs_eq, I32Result.fields_eq, I32Result.fields_eq, h]
  · intro h
    have hsame := (I32Result.parses_writeAs codec name x).unique
      (I32Result.parses_writeAs codec name y) h
    rw [← I32Result.success_of_read x, hsame, I32Result.success_of_read]

theorem HiResult.compareTo_iff_write {x y : HiResult} (hx : ∀ s, x.success = some s → Fits s)
    (hy : ∀ s, y.success = some s → Fits s) : x.compareTo y = .eq ↔ x.write p = y.write p := by
  rw [HiResult.compareTo_eq_eq]
  constructor
  · intro h
    rw [h]
  · intro h
    exact (HiResult.parses_write codec x hx).unique (HiResult.parses_write codec y hy) h

end Same

/-- `compareTo` is a total preorder on each class, so that sorting is sound. It agrees with `equals`
on texts and between objects with all their bits set; every object with numbers has another one on
which the two disagree. Which objects are the same on the wire is decided by `equals` for the
arguments and by `compareTo` for the results. -/
theorem compareTo_order :
    (Std.TransCmp AddArgs.compareTo ∧ Std.TransCmp I32Result.compareTo ∧
        Std.TransCmp HiResult.compareTo ∧ Std.TransCmp NoArgs.compareTo) ∧
      (∀ x y : AddArgs, x.aIsSet = true ∧ x.bIsSet = true → y.aIsSet = true ∧ y.bIsSet = true →
        (x.compareTo y = .eq ↔ x.equals y = true)) ∧
      (∀ x : AddArgs, ∃ y : AddArgs, ¬ (x.compareTo y = .eq ↔ x.equals y = true)) ∧
      (∀ x y : I32Result, x.successIsSet = true → y.successIsSet = true →
        (x.compareTo y = .eq ↔ x.equals y = true)) ∧
      (∀ x : I32Result, ∃ y : I32Result, ¬ (x.compareTo y = .eq ↔ x.equals y = true)) ∧
      (∀ x y : HiResult, x.compareTo y = .eq ↔ x.equals y = true) ∧
      (∀ x y : NoArgs, x.compareTo y = .eq ↔ x.equals y = true) ∧
      ∀ p : TProtocol, p.Lawful →
        (∀ x y : AddArgs, x.equals y = true ↔ x.write p = y.write p) ∧
        (∀ (name : String) (x y : I32Result),
          x.compareTo y = .eq ↔ x.writeAs p name = y.writeAs p name) ∧
        ∀ x y : HiResult, (∀ s, x.success = some s → Fits s) →
          (∀ s, y.success = some s → Fits s) → (x.compareTo y = .eq ↔ x.write p = y.write p) := by
  refine ⟨⟨AddArgs.transCmp_compareTo, I32Result.transCmp_compareTo, HiResult.transCmp_compareTo,
      NoArgs.transCmp_compareTo⟩, fun _ _ => AddArgs.compareTo_iff_equals,
    AddArgs.exists_inconsistent, fun _ _ => I32Result.compareTo_iff_equals,
    I32Result.exists_inconsistent, fun x y => ?_, fun x y => iff_of_true rfl rfl,
    fun p lawful => ?_⟩
  · rw [HiResult.compareTo_eq_eq, HiResult.equals_iff]
  · exact ⟨AddArgs.equals_iff_write lawful.toCodec,
      I32Result.compareTo_iff_writeAs lawful.toCodec,
      fun _ _ => HiResult.compareTo_iff_write lawful.toCodec⟩

/-- A stale value is not written, though `equals` sees it; two texts are never the same. -/
theorem compareTo_order_stale :
    (AddResult.write Binary.protocol ⟨5, false⟩ = AddResult.write Binary.protocol {} ∧
      I32Result.equals ⟨5, false⟩ {} = false) ∧
    HiResult.write Binary.protocol ⟨some "hi"⟩ ≠ HiResult.write Binary.protocol ⟨some "hi!"⟩ := by
  obtain ⟨-, hresult, hhi⟩ := compareTo_order.2.2.2.2.2.2.2 Binary.protocol Binary.lawful
  refine ⟨⟨(hresult "add_result" ⟨5, false⟩ {}).mp rfl, rfl⟩, fun h => ?_⟩
  have hsame := (hhi ⟨some "hi"⟩ ⟨some "hi!"⟩ (fun s hs => by cases hs; decide +kernel)
    (fun s hs => by cases hs; decide +kernel)).mpr h
  exact absurd hsame (by decide +kernel)

end SbtExample.Haver
