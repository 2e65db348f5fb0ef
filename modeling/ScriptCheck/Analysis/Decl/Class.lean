import ScriptCheck.Analysis.Decl.Function

/-!
Classes and interfaces: their headers, members and inheritance.

Like a function, a class is read twice. The first reading declares the class and its members and
passes over the bodies of methods; the second reads the bodies. The first declaration of a name
counts, and only the reading that declared a class adds members to it.
-/

namespace ScriptCheck

/-- A class whose declaration is being read. It is fresh if this reading declared it. -/
structure OpenClass where
  id : ClassId
  isFresh : Bool
  deriving DecidableEq, Repr

namespace Check

/-! ### Headers -/

/-- The modifiers before the word `class`. -/
structure ClassMarks where
  isAbstract : Bool := false
  isFinal : Bool := false

/-- Reads the modifiers of a class. -/
def classMarksFrom : Nat → ClassMarks → Check ClassMarks
  | 0, _ => throw .spent
  | n + 1, found => do
      match ← kind with
      | .kwAbstract =>
          let _ ← advance
          classMarksFrom n { found with isAbstract := true }
      | .kwFinal =>
          let _ ← advance
          classMarksFrom n { found with isFinal := true }
      | _ => return found

/-- Reads the word `class` or `interface`; says whether it was the second. -/
def interfaceMark : Check Bool := do
  let token ← advance
  match token.kind with
  | .kwClass => return false
  | .kwInterface => return true
  | _ => rejectToken token

/-- Whether the annotation before a class marks it as unchecked. Any other is reported. -/
def uncheckedMark (leading : Option Note) (namePosition : Position) : Check Bool := do
  match leading with
  | some .unchecked => return true
  | some _ =>
      report (.invalidNote "only `unchecked` applies to classes") namePosition
      return false
  | none => return false

/-- Reads one name. -/
def singleName : Check NameAt := do
  let token ← require .name
  return ⟨token.value, ← positionOf token⟩

/-- The names of parents: at most one that is extended, and those that are implemented. -/
structure ParentNames where
  superclass : List NameAt
  interfaces : List NameAt

/-- Reads the parents of a class. What an interface extends counts as implemented. -/
def parentNames (isInterface : Bool) : Check ParentNames := do
  let afterExtends ← if ← takes .kwExtends then
      if isInterface then names
      else do
        let name ← singleName
        pure [name]
    else pure []
  let afterImplements ← if ← takes .kwImplements then names else pure []
  if isInterface then return ⟨[], afterExtends ++ afterImplements⟩
  else return ⟨afterExtends, afterImplements⟩

/-- The classes of some names. Unknown ones are reported. -/
def knownParents : List NameAt → Check (List ClassId)
  | [] => return []
  | name :: names => do
      let found := (← classes).idOf? name.name
      if found.isNone then
        report (.unknownClass name.name) name.position
      let rest ← knownParents names
      return found.toList ++ rest

/-- The number of the class of a name; the class is added if there is none. -/
def classFor (name : String) (isInterface : Bool) (position : Position) : Check ClassId := do
  let s ← get
  match s.env.classes.idOf? name with
  | some id => return id
  | none =>
      let (id, env) := s.env.addClass (.stub name isInterface position)
      set { s with env := env }
      return id

/-- Reads the header of a class, and declares it if its name is not declared yet. -/
def classHeader (leading : Option Note) : Check OpenClass := do
  let marks ← classMarksFrom (← bound) {}
  let isInterface ← interfaceMark
  let name ← require .name
  let start ← positionOf name
  let isUnchecked ← uncheckedMark leading start
  let parents ← parentNames isInterface
  let id ← classFor name.value isInterface start
  let decl := ((← classes).get? id).getD default
  if decl.isDeclared then
    unless decl.position == start do
      report (.repeatedClass name.value) start
    return ⟨id, false⟩
  else
    let superclass ← knownParents parents.superclass
    let interfaces ← knownParents parents.interfaces
    modifyEnv (·.modifyClass id fun decl => { decl with
      isInterface := isInterface
      isAbstract := marks.isAbstract
      isFinal := marks.isFinal
      isUnchecked := isUnchecked
      isDeclared := true
      position := start
      superclass := superclass.head?
      interfaces := interfaces })
    return ⟨id, true⟩

/-! ### Members -/

/-- What stands before a member. -/
structure MemberMarks where
  visibility : Visibility := .everyone
  isStatic : Bool := false
  isAbstract : Bool := false
  isFinal : Bool := false
  note : Option Note := none

/-- Reads the modifiers and annotations before a member. The last of each sort counts. -/
def memberMarksFrom : Nat → MemberMarks → Check MemberMarks
  | 0, _ => throw .spent
  | n + 1, found => do
      match ← kind with
      | .kwPublic =>
          let _ ← advance
          memberMarksFrom n { found with visibility := .everyone }
      | .kwProtected =>
          let _ ← advance
          memberMarksFrom n { found with visibility := .family }
      | .kwPrivate =>
          let _ ← advance
          memberMarksFrom n { found with visibility := .owner }
      | .kwStatic =>
          let _ ← advance
          memberMarksFrom n { found with isStatic := true }
      | .kwAbstract =>
          let _ ← advance
          memberMarksFrom n { found with isAbstract := true }
      | .kwFinal =>
          let _ ← advance
          memberMarksFrom n { found with isFinal := true }
      | .openNote =>
          let read ← note
          memberMarksFrom n { found with note := some read }
      | _ => return found

/-- The type of the annotation before a member, if there is one. -/
def memberType? (note : Option Note) : Check (Option Ty) := do
  match note with
  | none => return none
  | some (.type text start) => return some (← noteType text start)
  | some _ => fail (.invalidNote "expected a type") (← position)

/-- The entry of a class. -/
def classDef (id : ClassId) : Check ClassDef :=
  return ((← classes).get? id).getD default

/-- Adds a member to a class that this reading declared, or reports that it has one of the name. -/
def addMember (h : OpenClass) (isTaken : ClassDef → Bool) (shown : String)
    (position : Position) (add : ClassDef → ClassDef) : Check Unit := do
  if h.isFresh then
    if isTaken (← classDef h.id) then
      report (.repeatedMember (← className h.id) shown) position
    else modifyEnv (·.modifyClass h.id add)

/-- Reads class constants separated by commas. -/
def constantsOf (h : OpenClass) (visibility : Visibility) (declared : Option Ty) :
    Nat → Check Unit
  | 0 => throw .spent
  | n + 1 => do
      let name ← require .name
      let _ ← require .assign
      let value ← expr .comma
      let start ← positionOf name
      let constant : Constant := {
        name := name.value
        visibility := visibility
        owner := h.id
        position := start
        type := declared.getD value.type }
      addMember h (fun decl => (decl.declaredConstant? name.value).isSome) name.value start
        fun decl => { decl with constants := decl.constants ++ [constant] }
      if ← takes .comma then constantsOf h visibility declared n

/-- Reads a declaration of class constants. -/
def classConstants (h : OpenClass) (marks : MemberMarks) : Check Unit := do
  let _ ← require .kwConst
  let declared ← memberType? marks.note
  constantsOf h marks.visibility declared (← bound)
  let _ ← require .semicolon

/-- Reads properties separated by commas. -/
def propertiesOf (h : OpenClass) (marks : MemberMarks) (declared : Option Ty) :
    Nat → Check Unit
  | 0 => throw .spent
  | n + 1 => do
      let name ← require .var
      let type ← if ← takes .assign then declaredType? declared (← expr .comma)
        else pure declared
      let start ← positionOf name
      if h.isFresh then
        let property : Property := {
          name := name.value
          visibility := marks.visibility
          owner := h.id
          position := start
          type := ← typeOrMixed type
          isStatic := marks.isStatic }
        addMember h (fun decl => (decl.declaredProperty? name.value).isSome) ("$" ++ name.value)
          start fun decl => { decl with properties := decl.properties ++ [property] }
      if ← takes .comma then propertiesOf h marks declared n

/-- Reads a declaration of properties. A descriptor before them counts more than an annotation. -/
def classProperties (h : OpenClass) (marks : MemberMarks) : Check Unit := do
  let noted ← memberType? marks.note
  let declared ← if (← kind) == .var then pure noted
    else do
      let start ← position
      let text ← descriptor
      some <$> noteType text start
  propertiesOf h marks declared (← bound)
  let _ ← require .semicolon

/-- Reads the body of a method, or passes over it if there is no reader of statements. -/
def methodBody (stmt : Option StmtReader) (h : OpenClass) (method : RoutineHeader)
    (isStatic : Bool) : Check Unit := do
  match stmt with
  | none => passBlock
  | some stmt =>
      let name := (← className h.id) ++ "::" ++ method.name
      routineBody stmt { method with name := name } (some h.id) isStatic

/-- Reads a method. The methods of an interface are abstract, and abstract methods have no body. -/
def classMethod (stmt : Option StmtReader) (h : OpenClass) (marks : MemberMarks) :
    Check Unit := do
  let found ← header marks.note
  let isAbstract := marks.isAbstract || (← classDef h.id).isInterface
  let method : Method := {
    name := found.name
    visibility := marks.visibility
    owner := h.id
    position := found.position
    isAbstract := isAbstract
    isStatic := marks.isStatic
    isFinal := marks.isFinal
    signature := found.signature }
  addMember h (fun decl => (decl.declaredMethod? found.name).isSome) found.name found.position
    fun decl => { decl with methods := decl.methods ++ [method] }
  unless ← takes .semicolon do
    if isAbstract then
      fail (.misplacedToken (← current).value "abstract methods have no body") (← position)
    methodBody stmt h found marks.isStatic

/-- Reads one member. -/
def classMember (stmt : Option StmtReader) (h : OpenClass) : Check Unit := do
  let marks ← memberMarksFrom (← bound) {}
  match ← kind with
  | .kwConst => classConstants h marks
  | .kwFunction => classMethod stmt h marks
  | .var | .name | .kwArray => classProperties h marks
  | _ => reject

/-- Reads members up to the closing brace or the end; a broken one is reported and passed over. -/
def membersFrom (stmt : Option StmtReader) (h : OpenClass) : Nat → Check Unit
  | 0 => throw .spent
  | n + 1 => do
      let here ← kind
      unless here == .closeCurly || here == .eof do
        recover () (classMember stmt h)
        membersFrom stmt h n

/-- Reads the members of a class in braces. -/
def classBody (stmt : Option StmtReader) (h : OpenClass) : Check Unit := do
  let _ ← require .openCurly
  membersFrom stmt h (← bound)
  let _ ← require .closeCurly

/-- Reads a class; the bodies of methods are passed over if there is no reader of statements. -/
def classDeclaration (stmt : Option StmtReader) : Check OpenClass := do
  let leading ← note?
  let h ← classHeader leading
  inClass h.id (classBody stmt h)
  return h

/-! ### Inheritance -/

/-- What is wrong with the class that a class extends. -/
def superclassFaults (t : ClassTable) (decl : ClassDef) : List Cause :=
  match decl.superclass.bind t.get? with
  | none => []
  | some parent =>
      if !parent.isDeclared then [.unknownClass parent.name]
      else if parent.isInterface then
        [.invalidParent decl.name parent.name "a class cannot extend an interface"]
      else if parent.isFinal then [.finalParent decl.name parent.name]
      else []

/-- What is wrong with one of the interfaces that a class implements. -/
def interfaceFaults (decl parent : ClassDef) : List Cause :=
  if !parent.isDeclared then [.unknownClass parent.name]
  else if parent.isInterface then []
  else
    let message :=
      if decl.isInterface then "an interface can only extend interfaces"
      else "only interfaces can be implemented"
    [.invalidParent decl.name parent.name message]

/-- What is wrong with the inheritance of a class. A class that inherits from itself is not looked
at further. -/
def inheritanceFaults (t : ClassTable) (id : ClassId) : List Cause :=
  match t.get? id with
  | none => []
  | some decl =>
      if t.isCyclic id then [.cyclicInheritance decl.name]
      else
        superclassFaults t decl
          ++ (decl.interfaces.filterMap t.get?).flatMap (interfaceFaults decl)
          ++ (t.unimplemented id).map fun m =>
            .unimplementedMethod decl.name (t.nameOf m.owner ++ "::" ++ m.name)

/-- Reports mistakes at one place. -/
def reportAll (position : Position) : List Cause → Check Unit
  | [] => return
  | cause :: causes => do
      report cause position
      reportAll position causes

/-- Checks the inheritance of a class, once. -/
def checkInheritance (id : ClassId) : Check Unit := do
  let s ← get
  unless s.checked.contains id do
    set { s with checked := id :: s.checked }
    let decl ← classDef id
    reportAll decl.position (inheritanceFaults s.env.classes id)

/-- Reads a class ahead of its place; gives it if this reading declared it. -/
def classAhead : Check (Option ClassId) := do
  let h ← classDeclaration none
  return if h.isFresh then some h.id else none

/-- Reads a class in its place. -/
def classStatement (stmt : StmtReader) : Check Exits := do
  let h ← classDeclaration (some stmt)
  checkInheritance h.id
  return .passing

end Check

end ScriptCheck
