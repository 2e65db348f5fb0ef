import ScriptCheck.Proofs.Analysis.Decl.Composition
import ScriptCheck.Proofs.Analysis.Stmt.Progress

/-!
Declarations of functions and classes read on.

The header of a function has a keyword and the header of a class a name, so the statements of their
bodies start with a token less. Of a class the members are read with a recovery from faults of their
own; each round of that loop moves the cursor, by the member or by the recovery.
-/

namespace ScriptCheck.Check

variable {w : Extent} {n r : Nat}

/-! ### Parameters -/

lemma reads_paramType? : Reads w n paramType? := by
  have hdescriptor : Reads w n (position >>= fun start => do
      let text ← descriptor
      return some (← noteType text start)) :=
    peeks_position.reads.bind fun _ => consumes_descriptor.reads.bind fun _ =>
      steady_noteType.reads.bind fun _ => .pure
  refine .onKind fun next => ?_
  split
  · refine consumes_note.reads.bind fun note => ?_
    split
    · exact steady_noteType.reads.bind fun _ => .pure
    · exact peeks_position.reads.bind fun _ => consumes_fail.reads
  · exact hdescriptor
  · exact hdescriptor
  · exact .pure

lemma reads_ellipsis : Reads w n ellipsis := by
  refine .onKind fun _ => (peeks_kindAhead 1).reads.bind fun _ => ?_
  refine (peeks_kindAhead 2).reads.bind fun _ => ?_
  split
  · refine .advance fun _ => .advance fun _ => ?_
    exact .advance fun _ => .pure
  · exact .pure

/-- A parameter has a variable. -/
lemma consumes_parameter : Consumes w n parameter := by
  refine reads_paramType?.bind_consumes fun declared => reads_takes.bind_consumes fun _ => ?_
  refine reads_ellipsis.bind_consumes fun _ => (consumes_require .var nofun).bind fun name => ?_
  refine .takes fun hasValue => ?_
  extract_lets typed
  have htyped : ∀ type, Reads w n (typed type) :=
    fun _ => steady_typeOrMixed.reads.bind fun _ => .pure
  split
  · exact (consumes_expr _).reads.bind fun _ => steady_declaredType?.reads.bind htyped
  · exact Reads.pure.bind htyped

lemma reads_paramsFrom (params : List Parameter) (isVariadic : Bool) :
    Reads w n (paramsFrom (n + 1) params isVariadic) := by
  induction n generalizing params isVariadic with
  | zero => exact fun s => .zero
  | succ n ih =>
      refine peeks_current.reads.bind fun token => ?_
      split
      · exact .pure
      · split
        · exact .positionOf fun _ => consumes_fail.reads
        · refine (consumes_parameter.bind_succ fun found => ?_).reads
          refine .takes fun more => ?_
          split
          · exact ih _ _
          · exact .pure

lemma reads_params : Reads w n params := by
  refine .require fun _ => .bound fun r _ => ?_
  refine (reads_paramsFrom _ _).bind fun found => ?_
  exact .require fun _ => .pure

/-! ### Headers of functions -/

lemma reads_resultNote? : Reads w n resultNote? := by
  refine .takes fun hasResult => ?_
  split
  · exact peeks_position.reads.bind fun _ => consumes_descriptor.reads.bind fun _ => .pure
  · exact .pure

lemma reads_notesFrom : Reads w n (notesFrom (n + 1)) := by
  induction n with
  | zero => exact fun s => .zero
  | succ n ih =>
      refine .onKind fun next => ?_
      split
      · exact (consumes_note.bind_succ fun _ => ih.bind fun _ => .pure).reads
      · exact .pure

lemma consumes_header {leading : Option Note} : Consumes w n (header leading) := by
  refine (consumes_require .kwFunction nofun).bind fun _ => .takes fun _ => ?_
  refine .require fun name => .positionOf fun position => ?_
  refine reads_params.bind fun params => reads_resultNote?.bind fun result => ?_
  refine .bound fun r _ => reads_notesFrom.bind fun trailing => ?_
  refine (steady_applyNotes _).reads.bind fun contract => ?_
  split
  · exact Reads.pure.bind fun _ => .pure
  · exact (steady_mixed.reads.map _).bind fun _ => .pure

/-! ### Bodies of functions -/

section Bodies

variable {stmt : StmtReader}

lemma reads_routineBody (hstmt : Proceeds .statement n stmt) {h : RoutineHeader}
    {owner : Option ClassId} {isStatic : Bool} :
    Reads .statement n (routineBody stmt h owner isStatic) := by
  have hbody := (steady_setParams Extent.statement_ne h.signature.isVariadic
    h.signature.params).reads.bind
    fun _ => (opens_block hstmt).reads
  exact hbody.inRoutine.bind fun exits => (steady_checkExit _ _).reads

lemma consumes_functionAhead : Consumes .statement n functionAhead := by
  refine reads_note?.bind_consumes fun leading => consumes_header.bind fun h => ?_
  exact (steady_enterFunction Extent.statement_ne _).reads.bind fun _ => consumes_passBlock.reads

lemma consumes_functionStatement (hstmt : Proceeds .statement n stmt) :
    Consumes .statement (n + 1) (functionStatement stmt) := by
  refine reads_note?.bind_consumes fun leading => consumes_header.bind_succ fun h => ?_
  refine (steady_enterFunction Extent.statement_ne _).reads.bind fun _ => ?_
  exact (reads_routineBody hstmt).bind fun _ => .pure

end Bodies

/-! ### Headers of classes -/

/-- Every round of the loop over the modifiers consumes a modifier. -/
lemma reads_classMarksFrom (found : ClassMarks) : Reads w n (classMarksFrom (n + 1) found) := by
  induction n generalizing found with
  | zero => exact fun s => .zero
  | succ n ih =>
      intro s
      unfold classMarksFrom
      refine .kind ?_
      by_cases hk : s.cursor.kind = .eof
      · rw [hk]
        exact Reads.pure s
      · have hnext : ∀ found, Opens w n (advance >>= fun _ => classMarksFrom (n + 1) found) :=
          fun found => opens_advance.bind fun _ => ih found
        split
        · exact (hnext _).runs hk
        · exact (hnext _).runs hk
        · exact Reads.pure s

lemma reads_interfaceMark : Reads w n interfaceMark := by
  refine .advance fun token => ?_
  split
  · exact .pure
  · exact .pure
  · exact consumes_rejectToken.reads

lemma reads_uncheckedMark {leading : Option Note} {position : Position} :
    Reads w n (uncheckedMark leading position) := by
  unfold uncheckedMark
  split
  · exact .pure
  · exact .report fun _ => .pure
  · exact .pure

lemma reads_parentNames {isInterface : Bool} : Reads w n (parentNames isInterface) := by
  refine .takes fun hasExtends => ?_
  extract_lets implements
  have himplements : ∀ names, Reads w n (implements names) := by
    refine fun _ => .takes fun hasImplements => ?_
    extract_lets parents
    have hparents : ∀ names, Reads w n (parents names) := by
      intro names
      simp only [parents]
      split
      · exact .pure
      · exact .pure
    split
    · exact consumes_names.reads.bind hparents
    · exact Reads.pure.bind hparents
  split
  · split
    · exact consumes_names.reads.bind himplements
    · have hsingle : Reads w n singleName :=
        .require fun _ => .positionOf fun _ => .pure
      exact hsingle.bind fun _ => Reads.pure.bind himplements
  · exact Reads.pure.bind himplements

lemma reads_classFor {name : String} {isInterface : Bool} {position : Position} :
    Reads .statement n (classFor name isInterface position) := by
  intro s
  refine .peek (m := get) rfl ?_
  cases s.env.classes.idOf? name with
  | some id => exact Reads.pure s
  | none => exact fun hs _ => ⟨{ Change.refl .statement s with env := nofun }, hs, False.elim⟩

/-- The header of a class has its name. -/
lemma consumes_classHeader {leading : Option Note} :
    Consumes .statement n (classHeader leading) := by
  refine .bound fun r _ => ?_
  refine (reads_classMarksFrom _).bind_consumes fun marks => ?_
  refine reads_interfaceMark.bind_consumes fun isInterface => ?_
  refine (consumes_require .name nofun).bind fun name => ?_
  refine .positionOf fun start => ?_
  refine reads_uncheckedMark.bind fun isUnchecked => ?_
  refine reads_parentNames.bind fun parents => ?_
  refine reads_classFor.bind fun id => peeks_classes.reads.bind fun t => ?_
  extract_lets decl
  split
  · split
    · exact .pure
    · exact .report fun _ => .pure
  · refine steady_knownParents.reads.bind fun superclass => ?_
    refine steady_knownParents.reads.bind fun _ => ?_
    exact reads_modifyEnv.bind fun _ => .pure

/-! ### Members of classes -/

/-- Every round of the loop over the modifiers consumes a modifier or an annotation. -/
lemma reads_memberMarksFrom (found : MemberMarks) : Reads w n (memberMarksFrom (n + 1) found) := by
  induction n generalizing found with
  | zero => exact fun s => .zero
  | succ n ih =>
      intro s
      unfold memberMarksFrom
      refine .kind ?_
      by_cases hk : s.cursor.kind = .eof
      · rw [hk]
        exact Reads.pure s
      · have hnext : ∀ found, Opens w n (advance >>= fun _ => memberMarksFrom (n + 1) found) :=
          fun found => opens_advance.bind fun _ => ih found
        split
        iterate 6 exact (hnext _).runs hk
        · exact (consumes_note.opens.bind fun _ => ih _).runs hk
        · exact Reads.pure s

lemma reads_memberType? {note : Option Note} : Reads w n (memberType? note) := by
  unfold memberType?
  split
  · exact .pure
  · exact steady_noteType.reads.bind fun _ => .pure
  · exact peeks_position.reads.bind fun _ => consumes_fail.reads

lemma peeks_classDef {id : ClassId} : Peeks (classDef id) := fun _ => ⟨_, rfl⟩

lemma consumes_constantsOf {h : OpenClass} {visibility : Visibility} {declared : Option Ty} :
    Consumes .statement n (constantsOf h visibility declared (n + 1)) := by
  induction n with
  | zero => exact fun s => .zero
  | succ n ih =>
      refine (consumes_require .name nofun).bind_succ fun name => ?_
      refine .require fun _ => (consumes_expr _).reads.bind fun value => ?_
      refine .positionOf fun start => ?_
      refine (steady_addMember Extent.statement_ne (.constant _)).reads.bind fun _ => ?_
      refine .takes fun more => ?_
      split
      · exact ih.reads
      · exact .pure

lemma consumes_classConstants {h : OpenClass} {marks : MemberMarks} :
    Consumes .statement n (classConstants h marks) := by
  refine (consumes_require .kwConst nofun).bind fun _ => ?_
  refine reads_memberType?.bind fun declared => ?_
  refine .bound fun r _ => ?_
  refine consumes_constantsOf.reads.bind fun _ => ?_
  exact .require fun _ => .pure

lemma consumes_propertiesOf {h : OpenClass} {marks : MemberMarks} {declared : Option Ty} :
    Consumes .statement n (propertiesOf h marks declared (n + 1)) := by
  induction n with
  | zero => exact fun s => .zero
  | succ n ih =>
      refine (consumes_require .var nofun).bind_succ fun name => ?_
      refine .takes fun hasValue => ?_
      extract_lets next typed
      have hnext : ∀ u, Reads .statement n (next u) := by
        refine fun _ => .takes fun more => ?_
        split
        · exact ih.reads
        · exact .pure
      have htyped : ∀ type, Reads .statement n (typed type) := by
        refine fun type => .positionOf fun start => ?_
        split
        · refine steady_typeOrMixed.reads.bind fun _ => ?_
          exact (steady_addMember Extent.statement_ne (.property _)).reads.bind hnext
        · exact hnext ()
      split
      · exact (consumes_expr _).reads.bind fun _ => steady_declaredType?.reads.bind htyped
      · exact Reads.pure.bind htyped

lemma consumes_classProperties {h : OpenClass} {marks : MemberMarks} :
    Consumes .statement n (classProperties h marks) := by
  refine reads_memberType?.bind_consumes fun noted => ?_
  refine peeks_kind.reads.bind_consumes fun next => ?_
  extract_lets properties
  have hproperties : ∀ declared, Consumes .statement n (properties declared) := by
    refine fun declared => .bound fun r _ => ?_
    refine consumes_propertiesOf.bind fun _ => ?_
    exact .require fun _ => .pure
  split
  · exact Reads.pure.bind_consumes hproperties
  · refine peeks_position.reads.bind_consumes fun start => ?_
    refine consumes_descriptor.reads.bind_consumes fun text => ?_
    exact (steady_noteType.reads.map _).bind_consumes hproperties

section Members

variable {stmt : Option StmtReader} (hstmt : ∀ st ∈ stmt, Proceeds .statement n st)
include hstmt

lemma reads_methodBody {h : OpenClass} {method : RoutineHeader} {isStatic : Bool} :
    Reads .statement n (methodBody stmt h method isStatic) := by
  cases stmt with
  | none => exact consumes_passBlock.reads
  | some st =>
      refine (peeks_className _).reads.bind fun name => ?_
      exact reads_routineBody (hstmt st rfl)

lemma consumes_classMethod {h : OpenClass} {marks : MemberMarks} :
    Consumes .statement n (classMethod stmt h marks) := by
  refine consumes_header.bind fun found => peeks_classDef.reads.bind fun decl => ?_
  extract_lets isAbstract method
  refine (steady_addMember Extent.statement_ne (.method _)).reads.bind fun _ => ?_
  refine .takes fun hasNone => ?_
  split
  · exact .pure
  · split
    · refine peeks_current.reads.bind fun _ => peeks_position.reads.bind fun _ => ?_
      exact consumes_fail.reads.bind fun _ => reads_methodBody hstmt
    · exact reads_methodBody hstmt

lemma consumes_classMember (h : OpenClass) : Consumes .statement n (classMember stmt h) := by
  refine .bound fun r hr => ?_
  refine (reads_memberMarksFrom _).bind_consumes fun marks => ?_
  refine peeks_kind.reads.bind_consumes fun next => ?_
  split
  · exact consumes_classConstants
  · exact (consumes_classMethod hstmt).le hr
  iterate 3 exact consumes_classProperties
  · exact consumes_reject

/-- Every round of the loop over the members moves the cursor, since it is not at the end: by the
member, or by passing over a broken one. -/
lemma reads_membersFrom (h : OpenClass) (hr : r ≤ n) :
    Reads .statement r (membersFrom stmt h (r + 1)) := by
  induction r with
  | zero => exact fun s => .zero
  | succ r ih =>
      intro s
      unfold membersFrom
      refine .kind ?_
      split
      case isTrue => exact Reads.pure s
      case isFalse hhere =>
        have hk : s.cursor.kind ≠ .eof := by
          intro he
          simp [he] at hhere
        have hmember : Proceeds .statement (r + 1) (recover () (classMember stmt h)) :=
          ((consumes_classMember hstmt h).le hr).recover
        exact (hmember.runs hk).bind_succ fun _ => ih (by omega)

lemma reads_classBody (h : OpenClass) : Reads .statement n (classBody stmt h) := by
  refine .require fun _ => .bound fun r hr => ?_
  refine (reads_membersFrom hstmt h hr).bind fun _ => ?_
  exact .require fun _ => .pure

lemma consumes_classDeclaration : Consumes .statement (n + 1) (classDeclaration stmt) := by
  refine reads_note?.bind_consumes fun leading => consumes_classHeader.bind_succ fun h => ?_
  exact (reads_classBody hstmt h).inClass.bind fun _ => .pure

end Members

/-! ### Inheritance -/

lemma consumes_classAhead : Consumes .statement n classAhead := by
  have hclass : Consumes .statement (n + 1) (classDeclaration none) :=
    consumes_classDeclaration nofun
  exact (hclass.le n.le_succ).bind fun _ => .pure

lemma consumes_classStatement {stmt : StmtReader} (hstmt : Proceeds .statement n stmt) :
    Consumes .statement (n + 1) (classStatement stmt) := by
  have hclass : Consumes .statement (n + 1) (classDeclaration (some stmt)) := by
    refine consumes_classDeclaration fun st hst => ?_
    cases hst
    exact hstmt
  exact hclass.bind fun h => (steady_checkInheritance Extent.statement_ne _).reads.bind fun _ => .pure

end ScriptCheck.Check
