import AnnotationGraft.Proofs.Bytes.Delimiting
import AnnotationGraft.Proofs.ClassFile.RoundTrip

/-!
# Where a class file ends

Every part of a class file tells by itself where it ends, so reading delimits a class file
(`Scan.delimits_classFile`).  Bytes that can be read are then read in one way only
(`ClassFile.decode_truncated_or_trailing`): a proper prefix of them is truncated, wherever it is
cut, and bytes after them are trailing, whatever they are.

The contents of an annotation attribute are read within its body, after the body was taken as a
whole.  So no check of the contents comes before the report that the body is truncated.
-/

namespace AnnotationGraft

/-! ## The pool -/

theorem Constant.delimits_scanBody (kind : ConstantKind) : Scan.Delimits (scanBody kind) := by
  cases kind with
  | utf8 => exact Scan.delimits_word16.bind fun size => (Scan.delimits_bytes size.toNat).map utf8
  | integer => exact Scan.delimits_word32.map fun w => integer w.toInt32
  | float => exact Scan.delimits_word32.map float
  | long => exact Scan.delimits_word64.map fun w => long w.toInt64
  | double => exact Scan.delimits_word64.map double
  | classInfo => exact Scan.delimits_word16.map classInfo
  | string => exact Scan.delimits_word16.map string
  | methodType => exact Scan.delimits_word16.map methodType
  | moduleInfo => exact Scan.delimits_word16.map moduleInfo
  | packageInfo => exact Scan.delimits_word16.map packageInfo
  | fieldRef => exact Scan.delimits_word16.bind fun i => Scan.delimits_word16.map (fieldRef i)
  | methodRef => exact Scan.delimits_word16.bind fun i => Scan.delimits_word16.map (methodRef i)
  | interfaceMethodRef =>
    exact Scan.delimits_word16.bind fun i => Scan.delimits_word16.map (interfaceMethodRef i)
  | nameAndType => exact Scan.delimits_word16.bind fun i => Scan.delimits_word16.map (nameAndType i)
  | dynamic => exact Scan.delimits_word16.bind fun i => Scan.delimits_word16.map (dynamic i)
  | invokeDynamic =>
    exact Scan.delimits_word16.bind fun i => Scan.delimits_word16.map (invokeDynamic i)
  | methodHandle => exact Scan.delimits_byte.bind fun k => Scan.delimits_word16.map (methodHandle k)

theorem Constant.delimits_scan (index : UInt16) : Scan.Delimits (scan index) := by
  refine Scan.delimits_byte.bind fun tag => ?_
  split
  · next kind _ => exact delimits_scanBody kind
  · exact Scan.delimits_throw _

theorem ConstantPool.delimits_scanSlots (n : Nat) (pool : ConstantPool) :
    Scan.Delimits (scanSlots n pool) := by
  induction n using Nat.strongRecOn generalizing pool with
  | ind n ih =>
    cases n with
    | zero => exact Scan.delimits_pure pool
    | succ n =>
      rw [scanSlots_succ]
      refine (Constant.delimits_scan _).bind fun c => ?_
      split
      · exact Scan.delimits_throw _
      · have hwidth := one_le_width c
        exact ih (n + 1 - c.width) (by omega) (pool.push c)

theorem ConstantPool.delimits_scan : Scan.Delimits scan :=
  Scan.delimits_word16.bind fun _ => delimits_scanSlots _ empty

namespace Scan

variable (pool : ConstantPool)

/-! ## Attributes and members -/

theorem delimits_lookup {α : Type} (find : UInt16 → Except DecodeError α) :
    Delimits (lookup find) :=
  delimits_word16.bind fun index => delimits_ofExcept (find index)

theorem delimits_descriptor (recognized : String → Bool) :
    Delimits (descriptor pool recognized) :=
  (delimits_lookup _).bind fun d => (delimits_ofExcept _).bind fun _ => delimits_pure d

theorem delimits_takeAttribute (done : PartialTable) (name : String) (size : UInt32)
    (start : Nat) (info : Bytes) : Delimits (takeAttribute pool done name size start info) := by
  unfold takeAttribute
  split
  · exact delimits_pure _
  split
  · exact delimits_pure _
  · refine (delimits_within info start _).bind fun found => ?_
    dsimp only
    split
    · exact delimits_pure _
    · exact delimits_throw _

theorem delimits_attributeInto (done : PartialTable) : Delimits (attributeInto pool done) := by
  rw [attributeInto_eq]
  refine (delimits_lookup _).bind fun name => delimits_word32.bind fun size => ?_
  refine delimits_offset.bind fun start => (delimits_bytes size.toNat).bind fun info => ?_
  exact delimits_takeAttribute pool done name size start info

theorem delimits_attributes : Delimits (attributes pool) := by
  refine delimits_word16.bind fun count => ?_
  exact (delimits_foldlM (delimits_attributeInto pool) count.toNat _).map PartialTable.table

theorem delimits_member (kind : MemberKind) : Delimits (member pool kind) := by
  refine delimits_word16.bind fun flags => (delimits_lookup _).bind fun name => ?_
  refine (delimits_descriptor pool _).bind fun d => ?_
  split
  · exact delimits_throw _
  · exact (delimits_attributes pool).bind fun t => delimits_pure _

/-! ## Classes -/

theorem delimits_superName : Delimits (superName pool) := by
  refine delimits_word16.bind fun index => ?_
  split
  · exact delimits_pure none
  · exact (delimits_ofExcept _).map some

theorem delimits_header : Delimits header := by
  refine delimits_word32.bind fun magic => ?_
  split
  · exact delimits_throw _
  refine delimits_word16.bind fun minor => delimits_word16.bind fun major => ?_
  dsimp only
  split
  · exact delimits_throw _
  · exact delimits_pure _

theorem delimits_classBody (version : ClassVersion) : Delimits (classBody version pool) := by
  refine delimits_word16.bind fun flags => (delimits_lookup _).bind fun name => ?_
  refine (delimits_ofExcept _).bind fun _ => (delimits_superName pool).bind fun super => ?_
  refine (delimits_table (delimits_lookup _)).bind fun interfaces => ?_
  refine (delimits_table (delimits_member pool .field)).bind fun fields => ?_
  refine (delimits_table (delimits_member pool .method)).bind fun methods => ?_
  exact (delimits_attributes pool).bind fun t => delimits_pure _

theorem delimits_classFile : Delimits classFile := by
  refine delimits_header.bind fun version => ConstantPool.delimits_scan.bind fun pool => ?_
  exact (delimits_ofExcept _).bind fun _ => delimits_classBody pool version

end Scan

namespace ClassFile

variable {bytes : Bytes} {c : ClassFile}

/-- Bytes that can be read are delimited by the class file in them. -/
theorem delimitsAt_of_decode (h : decode bytes = .ok c) :
    Scan.classFile.DelimitsAt 0 bytes c := by
  obtain ⟨n, hrun⟩ := decode_eq_ok_iff.1 h
  obtain ⟨taken, htaken, hdelimits⟩ := Scan.delimits_classFile _ _ _ hrun
  obtain rfl : bytes = taken := htaken.trans (List.append_nil taken)
  exact hdelimits

/-- Bytes that can be read can be read as they are only.  A proper prefix of them is truncated: a
field that begins in it, or where it ends, needs more bytes than are left.  Bytes that follow are
trailing. -/
theorem decode_truncated_or_trailing (h : decode bytes = .ok c) :
    (∀ cut, cut <+: bytes → cut ≠ bytes → ∃ offset needed,
        decode cut = .error (.truncated offset needed)
          ∧ offset ≤ cut.length ∧ cut.length < offset + needed)
      ∧ ∀ more, more ≠ [] → decode (bytes ++ more) = .error (.trailingBytes more.length) := by
  have hdelimits := delimitsAt_of_decode h
  constructor
  · intro cut hcut hne
    obtain ⟨missing, hmissing⟩ := hcut
    have hpos : missing ≠ [] := by
      rintro rfl
      exact hne (by rw [← hmissing, List.append_nil])
    obtain ⟨offset, needed, hrun, -, hwithin, hbeyond⟩ :=
      hdelimits.needs cut missing hmissing.symm hpos
    rw [Nat.zero_add] at hwithin hbeyond
    refine ⟨offset, needed, ?_, hwithin, hbeyond⟩
    rw [decode, hrun]
    rfl
  · intro more hmore
    have hnonempty : more.isEmpty = false := by simpa using hmore
    rw [decode, hdelimits.takes more]
    show (if more.isEmpty then _ else _) = _
    rw [hnonempty]
    rfl

/-- The bytes of `twoRetentions` cut within the body of an attribute, and with a byte too many. -/
theorem decode_twoRetentions_cut_or_longer : decode twoRetentionsBytes = .ok twoRetentionsRead
    ∧ twoRetentionsBytes.take 150 <+: twoRetentionsBytes
    ∧ twoRetentionsBytes.take 150 ≠ twoRetentionsBytes
    ∧ (∃ offset needed,
        decode (twoRetentionsBytes.take 150) = .error (.truncated offset needed)
          ∧ offset ≤ (twoRetentionsBytes.take 150).length
          ∧ (twoRetentionsBytes.take 150).length < offset + needed)
    ∧ decode (twoRetentionsBytes ++ [0]) = .error (.trailingBytes 1) := by
  have hcut : twoRetentionsBytes.take 150 ≠ twoRetentionsBytes := by decide +kernel
  obtain ⟨htruncated, htrailing⟩ := decode_truncated_or_trailing decode_twoRetentionsBytes
  exact ⟨decode_twoRetentionsBytes, List.take_prefix _ _, hcut,
    htruncated _ (List.take_prefix _ _) hcut, htrailing [0] (by decide)⟩

end ClassFile

end AnnotationGraft
