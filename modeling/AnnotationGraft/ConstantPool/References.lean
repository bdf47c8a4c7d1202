import AnnotationGraft.ConstantPool.Basic

/-!
# References between entries

An entry may refer only to an entry of the kind that it needs.  `ConstantPool.checkReferences` looks
at the entries in order and reports the first reference that is wrong.
-/

namespace AnnotationGraft.ConstantPool

/-- The references of an entry, in the order in which they are checked, with the kind that each has
to lead to. -/
def typedReferences : Constant → List (UInt16 × ConstantKind)
  | .utf8 _ | .integer _ | .float _ | .long _ | .double _ | .methodHandle _ _ => []
  | .classInfo i | .string i | .methodType i | .moduleInfo i | .packageInfo i => [(i, .utf8)]
  | .fieldRef owner member | .methodRef owner member | .interfaceMethodRef owner member =>
    [(owner, .classInfo), (member, .nameAndType)]
  | .nameAndType name descriptor => [(name, .utf8), (descriptor, .utf8)]
  | .dynamic _ member | .invokeDynamic _ member => [(member, .nameAndType)]

/-- Checks one reference of the entry at `index`. -/
def checkReference (pool : ConstantPool) (index : UInt16) (reference : UInt16 × ConstantKind) :
    Except DecodeError Unit :=
  match pool.get? reference.1 with
  | none => .error (.invalidConstant index (.dangling reference.1))
  | some target =>
    if target.kind = reference.2 then .ok ()
    else .error (.invalidConstant index (.wrongTarget reference.1 target.kind reference.2))

/-- Checks the entry at `index`.  A method handle may refer to any entry, but its own kind has to
be one of the nine that exist. -/
def checkEntry (pool : ConstantPool) (entry : UInt16 × Constant) : Except DecodeError Unit :=
  match entry.2 with
  | .methodHandle referenceKind reference =>
    if 1 ≤ referenceKind.toNat ∧ referenceKind.toNat ≤ 9 then
      match pool.get? reference with
      | some _ => .ok ()
      | none => .error (.invalidConstant entry.1 (.dangling reference))
    else .error (.invalidConstant entry.1 (.badReferenceKind referenceKind))
  | c => (typedReferences c).forM (pool.checkReference entry.1)

/-- Checks every reference between entries. -/
def checkReferences (pool : ConstantPool) : Except DecodeError Unit :=
  pool.entries.forM pool.checkEntry

end AnnotationGraft.ConstantPool
