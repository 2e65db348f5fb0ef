import ScriptCheck.Descriptor.Grammar
import ScriptCheck.Text.Quoted

/-!
Compiled descriptors, shared through a cache.

Every descriptor text that has been compiled is bound to one instance of its type. A container's
element is the instance bound to the descriptor without the outermost tag, so equal parts are
shared; a text in the older form, or with blanks around it, is bound to the instance of its modern
spelling. A text that cannot be compiled leaves no trace.
-/

namespace ScriptCheck

/-- A compiled type as an object of its own: its number, the type, and for a container the number
of the instance of its element. -/
structure Interned where
  number : Nat
  type : Ty
  element : Option Nat := none
  deriving DecidableEq, Repr, Inhabited

/-- Why a descriptor has no type, or a value not the type it should have. -/
inductive DescriptorFault where
  | malformed (descriptor : String)
  | unknownClass (descriptor name : String)
  | mismatch (expected guess : String)
  deriving DecidableEq, Repr

namespace DescriptorFault

/-- The short label of the kind of error. -/
def label : DescriptorFault → String
  | malformed _ => "InvalidDescriptor"
  | unknownClass .. => "InvalidDescriptor"
  | mismatch .. => "VerificationFailure"

/-- The wording of an invalid descriptor. -/
def invalid (descriptor reason : String) : String :=
  "invalid type descriptor " ++ Text.quote descriptor ++ ": " ++ reason

/-- The wording of an error. -/
def message : DescriptorFault → String
  | malformed descriptor => invalid descriptor "does not match the descriptor grammar"
  | unknownClass descriptor name => invalid descriptor ("unknown class `" ++ name ++ "`")
  | mismatch expected guess => "value does not match " ++ expected ++ ": found " ++ guess

end DescriptorFault

/-- The descriptors compiled so far, each with its instance. -/
structure TypeCache where
  entries : List (String × Interned) := []
  issued : Nat := 0
  deriving DecidableEq, Repr, Inhabited

namespace TypeCache

/-- The instance bound to a descriptor. -/
def find? (cache : TypeCache) (descriptor : String) : Option Interned :=
  cache.entries.lookup descriptor

/-- Whether a descriptor is bound. -/
def isBound (cache : TypeCache) (descriptor : String) : Bool :=
  (cache.find? descriptor).isSome

/-- The number of descriptors that are bound. -/
def size (cache : TypeCache) : Nat :=
  cache.entries.length

/-- Binds a descriptor that is not bound yet. -/
def bind (cache : TypeCache) (descriptor : String) (made : Interned) : TypeCache :=
  if cache.isBound descriptor then cache
  else { cache with entries := cache.entries ++ [(descriptor, made)] }

/-- The instance of a descriptor, made from its type and element if it is not bound yet. -/
def intern (cache : TypeCache) (descriptor : String) (type : Ty) (element : Option Nat) :
    Interned × TypeCache :=
  match cache.find? descriptor with
  | some made => (made, cache)
  | none =>
      let made : Interned := ⟨cache.issued, type, element⟩
      (made, { entries := cache.entries ++ [(descriptor, made)], issued := cache.issued + 1 })

/-- The instance of a name under some tags, given the instance of the name alone. The innermost
container is made first. -/
def nest (cache : TypeCache) (name : List Char) (base : Interned) :
    List Keys → Interned × TypeCache
  | [] => (base, cache)
  | key :: tags =>
      let (inner, cache) := cache.nest name base tags
      cache.intern (String.ofList (name ++ Descriptor.writeTags (key :: tags)))
        (.container key inner.type) (some inner.number)

/-- The instance of a modern descriptor, given as name and tags; nothing if the name has no
type. -/
def compileParsed (cache : TypeCache) (t : ClassTable) (name : List Char) (tags : List Keys) :
    Option (Interned × TypeCache) :=
  let text := String.ofList name
  match cache.find? text with
  | some base => some (cache.nest name base tags)
  | none =>
      match Descriptor.named? t text with
      | none => none
      | some type =>
          let (base, cache) := cache.intern text type none
          some (cache.nest name base tags)

/-- The instance of a descriptor, compiled at its first use. -/
def compile (cache : TypeCache) (t : ClassTable) (descriptor : String) :
    Except DescriptorFault Interned × TypeCache :=
  match cache.find? descriptor with
  | some made => (.ok made, cache)
  | none =>
      let text := Text.trimBlanks descriptor.toList
      match Descriptor.parse? ((Descriptor.modernForm? text).getD text) with
      | none => (.error (.malformed descriptor), cache)
      | some (name, tags) =>
          match cache.compileParsed t name tags with
          | none => (.error (.unknownClass descriptor (String.ofList name)), cache)
          | some (made, cache) => (.ok made, cache.bind descriptor made)

end TypeCache

end ScriptCheck
