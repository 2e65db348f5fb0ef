import ScriptCheck.Proofs.Analysis.Stmt.Composition

/-!
Declarations, statements and the whole analysis are put together from steps.

The readers of functions and classes are, if the reader of statements that they take for bodies is.
By induction over the depth so is the reader of statements (`composed_stmt`), and with it the
analysis of a file (`composed_program`).
-/

namespace ScriptCheck.Check

variable {w : Extent} {stmt : StmtReader}

/-! ### Headers of routines -/

lemma composed_paramType? : Composed w paramType? := by
  have hdescriptor : Composed w (do
      let start ← position
      let text ← descriptor
      return some (← noteType text start)) :=
    composed_position.bind fun start => composed_descriptor.bind fun text =>
      steady_noteType.composed.bind fun _ => .pure _
  refine .onKind fun next => ?_
  split
  · refine composed_note.bind fun found => ?_
    split
    · exact steady_noteType.composed.bind fun _ => .pure _
    · exact composed_position.bind fun place => composed_fail .paramNote place
  · exact hdescriptor
  · exact hdescriptor
  · exact .pure _

lemma composed_ellipsis : Composed w ellipsis := by
  refine .onKind fun first => composed_kindAhead.bind fun second => ?_
  refine composed_kindAhead.bind fun third => .ite ?_ (.pure _)
  refine .advance fun _ => .advance fun _ => ?_
  exact .advance fun _ => .pure _

@[grind ←]
lemma steady_declaredType? {declared : Option Ty} {value : Facts} :
    Steady w (declaredType? declared value) := by
  cases declared with
  | none => exact .pure _
  | some type => exact steady_checkType.bind fun _ => .pure _

@[grind ←]
lemma steady_typeOrMixed {type : Option Ty} : Steady w (typeOrMixed type) := by
  cases type with
  | some type => exact .pure _
  | none => exact steady_mixed

lemma composed_parameter : Composed w parameter := by
  refine composed_paramType?.bind fun declared => .takes fun byReference => ?_
  refine composed_ellipsis.bind fun isVariadic => .require fun name => ?_
  refine .takes fun hasValue => .ite ?_ ?_
  · refine composed_expr.bind fun value => steady_declaredType?.composed.bind fun type => ?_
    exact steady_typeOrMixed.composed.bind fun type => .pure _
  · exact (Composed.pure _).bind fun type => steady_typeOrMixed.composed.bind fun type => .pure _

lemma composed_paramsFrom {fuel : Nat} (params : List Parameter) (isVariadic : Bool) :
    Composed w (paramsFrom fuel params isVariadic) := by
  induction fuel generalizing params isVariadic with
  | zero => exact composed_spent
  | succ fuel ih =>
      refine composed_current.bind fun token => .ite (.pure _) (.ite ?_ ?_)
      · exact .positionOf fun place => composed_fail (.misplaced _ _) place
      · refine composed_parameter.bind fun param => .takes fun goesOn => ?_
        exact .ite (ih _ _) (.pure _)

lemma composed_params : Composed w params := by
  refine .require fun _ => .bound fun fuel => ?_
  refine (composed_paramsFrom _ _).bind fun found => ?_
  exact .require fun _ => .pure _

@[grind ←]
lemma steady_knownClasses {names : List NameAt} : Steady w (knownClasses names) := by
  induction names with
  | nil => exact .pure _
  | cons name names ih =>
      refine steady_classNamed?.bind fun found => .ite ?_ ?_
      · exact (steady_report rfl rfl).bind fun _ => ih.bind fun rest => .pure _
      · exact ih.bind fun rest => .pure _

lemma composed_resultNote? : Composed w resultNote? := by
  refine .takes fun found => .ite ?_ (.pure _)
  exact composed_position.bind fun start => composed_descriptor.bind fun text => .pure _

lemma composed_notesFrom {fuel : Nat} : Composed w (notesFrom fuel) := by
  induction fuel with
  | zero => exact composed_spent
  | succ fuel ih =>
      refine .onKind fun next => .ite ?_ (.pure _)
      exact composed_note.bind fun first => ih.bind fun rest => .pure _

@[grind ←]
lemma steady_applyNotes {position : Position} (contract : Contract) {notes : List Note} :
    Steady w (applyNotes position contract notes) := by
  induction notes generalizing contract with
  | nil => exact .pure _
  | cons note notes ih =>
      cases note with
      | type text start => exact steady_noteType.bind fun type => (Steady.pure _).bind ih
      | void => exact (Steady.pure _).bind ih
      | throws names => exact steady_knownClasses.bind fun ids => (Steady.pure _).bind ih
      | unchecked => exact (steady_report rfl rfl).bind fun _ => (Steady.pure _).bind ih

lemma composed_header {leading : Option Note} : Composed w (header leading) := by
  refine .require fun _ => .takes fun _ => ?_
  refine .require fun name => .positionOf fun place => ?_
  refine composed_params.bind fun found => composed_resultNote?.bind fun result => ?_
  refine .bound fun fuel => composed_notesFrom.bind fun trailing => ?_
  refine (steady_applyNotes _).composed.bind fun contract => ?_
  split
  · exact (Composed.pure _).bind fun type => .pure _
  · exact (steady_mixed.composed.map _).bind fun type => .pure _

@[grind ←]
lemma steady_enterFunction (hw : w ≠ .expression) (h : RoutineHeader) :
    Steady w (enterFunction h) := by
  refine .get (fun s => ?_) fun s => rfl
  split
  · exact .ite (.pure _) (steady_report rfl rfl)
  · refine steady_modifyEnv hw fun env => ?_
    rw [Env.addFunction]
    split
    · exact .refl _
    · exact .refl _

/-! ### Bodies of routines -/

lemma reportUndeclared_run {h : RoutineHeader} {ids : List ClassId} (s : State) :
    reportUndeclared h ids s = .ok () { s with
      log := (ids.map fun id => (⟨.undeclaredException (s.env.classes.nameOf id) h.name,
        h.position⟩ : Fault)).foldl Log.addFault s.log } := by
  induction ids generalizing s with
  | nil => rfl
  | cons id ids ih =>
      rw [reportUndeclared, List.map_cons, List.foldl_cons]
      exact ih _

/-- The report of the exceptions that a routine does not declare. -/
lemma steady_reportThrows (h : RoutineHeader) (raises : NatSet) :
    Steady w (do
      if (← get).options.reportsThrows then
        reportUndeclared h (undeclared (← classes) raises h.signature.throws).elems) := by
  have heq : (do
      if (← get).options.reportsThrows then
        reportUndeclared h (undeclared (← classes) raises h.signature.throws).elems) =
      reportBy fun o env =>
        if o.reportsThrows then
          ((undeclared env.classes raises h.signature.throws).elems.map env.classes.nameOf).map
            fun exception => ⟨.undeclaredException exception h.name, h.position⟩
        else [] := by
    funext s
    rw [bind_of_ok (get_run s), reportBy]
    by_cases hon : s.options.reportsThrows = true
    · rw [if_pos hon, if_pos hon, List.map_map]
      exact reportUndeclared_run _
    · rw [if_neg hon, if_neg hon]
      rfl
  rw [heq]
  exact .reportBy (.undeclared h.name h.position fun env =>
    (undeclared env.classes raises h.signature.throws).elems.map env.classes.nameOf) (by grind)

@[grind ←]
lemma steady_checkExit (h : RoutineHeader) (exits : Exits) : Steady w (checkExit h exits) := by
  have hthrows := steady_reportThrows (w := w) h exits.raises
  rw [checkExit]
  split
  · split
    · exact (steady_report rfl rfl).bind fun _ => hthrows
    · exact hthrows
  · exact hthrows

@[grind ←]
lemma steady_bodyType {param : Parameter} {isVariadic : Bool} :
    Steady w (bodyType param isVariadic) :=
  .ite steady_typeOf (.pure _)

@[grind ←]
lemma steady_setParams (hw : w ≠ .expression) (isVariadic : Bool) (params : List Parameter) :
    Steady w (setParams isVariadic params) := by
  induction params with
  | nil => exact .pure _
  | cons param params ih =>
      refine steady_bodyType.bind fun type => ?_
      exact (Steady.setVariable _ _ _ hw).bind fun _ => ih

lemma composed_routineBody (hstmt : Composed .statement stmt) (h : RoutineHeader)
    (owner : Option ClassId) (isStatic : Bool) :
    Composed .statement (routineBody stmt h owner isStatic) := by
  have hbody := (steady_setParams Extent.statement_ne h.signature.isVariadic
    h.signature.params).composed.bind fun _ => composed_block hstmt
  exact (hbody.inRoutine _ (.inl rfl)).bind fun exits => (steady_checkExit h exits).composed

lemma composed_functionAhead (hw : w ≠ .expression) : Composed w functionAhead := by
  refine composed_note?.bind fun leading => composed_header.bind fun h => ?_
  exact (steady_enterFunction hw h).composed.bind fun _ => composed_passBlock

lemma composed_functionStatement (hstmt : Composed .statement stmt) :
    Composed .statement (functionStatement stmt) := by
  refine composed_note?.bind fun leading => composed_header.bind fun h => ?_
  refine (steady_enterFunction Extent.statement_ne h).composed.bind fun _ => ?_
  exact (composed_routineBody hstmt h none false).bind fun _ => .pure _

/-! ### Headers of classes -/

lemma composed_classMarksFrom {fuel : Nat} (found : ClassMarks) :
    Composed w (classMarksFrom fuel found) := by
  induction fuel generalizing found with
  | zero => exact composed_spent
  | succ fuel ih =>
      refine .onKind fun next => ?_
      split
      · exact .advance fun _ => ih _
      · exact .advance fun _ => ih _
      · exact .pure _

lemma composed_interfaceMark : Composed w interfaceMark := by
  refine .advance fun token => ?_
  split
  · exact .pure _
  · exact .pure _
  · exact composed_rejectToken token

lemma composed_uncheckedMark {leading : Option Note} {position : Position} :
    Composed w (uncheckedMark leading position) := by
  rw [uncheckedMark.eq_def]
  split
  · exact .pure _
  · exact (composed_report rfl).bind fun _ => .pure _
  · exact .pure _

lemma composed_singleName : Composed w singleName :=
  .require fun _ => .positionOf fun _ => .pure _

lemma composed_parentNames {isInterface : Bool} : Composed w (parentNames isInterface) := by
  have hrest (extended : List NameAt) : Composed w (do
      let implemented ← if ← takes .kwImplements then names else pure []
      if isInterface then return (⟨[], extended ++ implemented⟩ : ParentNames)
      else return ⟨extended, implemented⟩) := by
    refine .takes fun isImplemented => .ite ?_ ?_
    · exact composed_names.bind fun names => .ite (.pure _) (.pure _)
    · exact (Composed.pure _).bind fun names => .ite (.pure _) (.pure _)
  refine .takes fun isExtended => .ite (.ite ?_ ?_) ?_
  · exact composed_names.bind hrest
  · exact composed_singleName.bind fun name => (Composed.pure _).bind hrest
  · exact (Composed.pure _).bind hrest

@[grind ←]
lemma steady_knownParents {names : List NameAt} : Steady w (knownParents names) := by
  induction names with
  | nil => exact .pure _
  | cons name names ih =>
      refine steady_classes.bind fun t => .ite ?_ ?_
      · exact (steady_report rfl rfl).bind fun _ => ih.bind fun rest => .pure _
      · exact ih.bind fun rest => .pure _

lemma classFor_eq (name : String) (isInterface : Bool) (position : Position) :
    classFor name isInterface position = changeEnv fun env => (env.classes.idOf? name).elim
      (env.addClass (.stub name isInterface position)) fun id => (id, env) := by
  funext s
  rw [classFor, bind_of_ok (get_run s), changeEnv]
  cases s.env.classes.idOf? name <;> rfl

lemma composed_classFor (hw : w ≠ .expression) {name : String} {isInterface : Bool}
    {position : Position} : Composed w (classFor name isInterface position) := by
  rw [classFor_eq]
  exact .changeEnv _ hw

lemma composed_classHeader (hw : w ≠ .expression) {leading : Option Note} :
    Composed w (classHeader leading) := by
  refine .bound fun fuel => (composed_classMarksFrom _).bind fun marks => ?_
  refine composed_interfaceMark.bind fun isInterface => .require fun name => ?_
  refine .positionOf fun start => composed_uncheckedMark.bind fun mark => ?_
  refine composed_parentNames.bind fun parents => (composed_classFor hw).bind fun id => ?_
  refine steady_classes.composed.bind fun t => .ite (.ite (.pure _) ?_) ?_
  · exact (composed_report rfl).bind fun _ => .pure _
  · refine steady_knownParents.composed.bind fun superclass => ?_
    refine steady_knownParents.composed.bind fun interfaces => ?_
    exact (composed_modifyEnv hw).bind fun _ => .pure _

/-! ### Members -/

lemma composed_memberMarksFrom {fuel : Nat} (found : MemberMarks) :
    Composed w (memberMarksFrom fuel found) := by
  induction fuel generalizing found with
  | zero => exact composed_spent
  | succ fuel ih =>
      refine .onKind fun next => ?_
      split
      case h_7 => exact composed_note.bind fun found => ih _
      case h_8 => exact .pure _
      all_goals exact .advance fun _ => ih _

lemma composed_memberType? {note : Option Note} : Composed w (memberType? note) := by
  rw [memberType?.eq_def]
  split
  · exact .pure _
  · exact steady_noteType.composed.bind fun type => .pure _
  · exact composed_position.bind fun place => composed_fail .memberNote place

@[grind ←]
lemma steady_classDef {id : ClassId} : Steady w (classDef id) :=
  steady_classes.bind fun _ => .pure _

lemma steady_addMember (hw : w ≠ .expression) {h : OpenClass} {isTaken : ClassDef → Bool}
    {shown : String} {position : Position} {add : ClassDef → ClassDef} (hadd : AddsMember add) :
    Steady w (addMember h isTaken shown position add) := by
  refine .ite (steady_classDef.bind fun decl => .ite ?_ ?_) (.pure _)
  · exact steady_className.bind fun name => steady_report rfl rfl
  · exact steady_modifyEnv hw fun env => (ClassTable.Grows.refl _).addMember h.id hadd

lemma composed_constantsOf (hw : w ≠ .expression) {h : OpenClass} {visibility : Visibility}
    {declared : Option Ty} {fuel : Nat} : Composed w (constantsOf h visibility declared fuel) := by
  induction fuel with
  | zero => exact composed_spent
  | succ fuel ih =>
      refine .require fun name => .require fun _ => ?_
      refine composed_expr.bind fun value => .positionOf fun start => ?_
      refine (steady_addMember hw (.constant _)).composed.bind fun _ => ?_
      exact .takes fun goesOn => .ite ih (.pure _)

lemma composed_classConstants (hw : w ≠ .expression) (h : OpenClass) (marks : MemberMarks) :
    Composed w (classConstants h marks) := by
  refine .require fun _ => composed_memberType?.bind fun declared => ?_
  refine .bound fun fuel => (composed_constantsOf hw).bind fun _ => ?_
  exact .require fun _ => .pure _

lemma composed_propertiesOf (hw : w ≠ .expression) {h : OpenClass} {marks : MemberMarks}
    {declared : Option Ty} {fuel : Nat} : Composed w (propertiesOf h marks declared fuel) := by
  induction fuel with
  | zero => exact composed_spent
  | succ fuel ih =>
      have hnext (found : Token) (start : Position) (type : Option Ty) : Composed w (do
          if h.isFresh then
            let property : Property := {
              name := found.value
              visibility := marks.visibility
              owner := h.id
              position := start
              type := ← typeOrMixed type
              isStatic := marks.isStatic }
            addMember h (fun decl => (decl.declaredProperty? found.value).isSome)
              ("$" ++ found.value) start
              fun decl => { decl with properties := decl.properties ++ [property] }
          if ← takes .comma then propertiesOf h marks declared fuel) := by
        have hgoesOn := (composed_takes : Composed w (takes .comma)).bind fun goesOn =>
          Composed.ite (p := goesOn = true) ih (.pure ())
        refine .ite (steady_typeOrMixed.composed.bind fun type => ?_) hgoesOn
        exact (steady_addMember hw (.property _)).composed.bind fun _ => hgoesOn
      refine .require fun name => .takes fun _ => .ite ?_ ?_
      · refine composed_expr.bind fun value => ?_
        refine steady_declaredType?.composed.bind fun type => ?_
        exact .positionOf fun start => hnext name start type
      · exact (Composed.pure _).bind fun type => .positionOf fun start =>
          hnext name start type

lemma composed_classProperties (hw : w ≠ .expression) (h : OpenClass) (marks : MemberMarks) :
    Composed w (classProperties h marks) := by
  have hnext (declared : Option Ty) : Composed w (do
      propertiesOf h marks declared (← bound)
      let _ ← require .semicolon) := by
    refine .bound fun fuel => (composed_propertiesOf hw).bind fun _ => ?_
    exact .require fun _ => .pure _
  refine composed_memberType?.bind fun noted => .onKind fun next => .ite ?_ ?_
  · exact (Composed.pure _).bind hnext
  · refine composed_position.bind fun start => composed_descriptor.bind fun text => ?_
    exact (steady_noteType.composed.map _).bind hnext

section Members

variable {stmt : Option StmtReader} (hw : w ≠ .expression)
  (hstmt : ∀ reader, stmt = some reader → w = .statement ∧ Composed w reader)
include hstmt

lemma composed_methodBody (h : OpenClass) (method : RoutineHeader) (isStatic : Bool) :
    Composed w (methodBody stmt h method isStatic) := by
  cases stmt with
  | none => exact composed_passBlock
  | some reader =>
      obtain ⟨rfl, hreader⟩ := hstmt reader rfl
      exact steady_className.composed.bind fun _ => composed_routineBody hreader _ _ _

include hw

lemma composed_classMethod (h : OpenClass) (marks : MemberMarks) :
    Composed w (classMethod stmt h marks) := by
  refine composed_header.bind fun found => steady_classDef.composed.bind fun decl => ?_
  refine (steady_addMember hw (.method _)).composed.bind fun _ => ?_
  refine .takes fun ends => ?_
  have hbody := composed_methodBody hstmt h found marks.isStatic
  refine .ite (.pure _) (.ite ?_ hbody)
  refine composed_current.bind fun token => composed_position.bind fun place => ?_
  exact (composed_fail (.misplaced _ _) place).bind fun _ => hbody

lemma composed_classMember (h : OpenClass) : Composed w (classMember stmt h) := by
  refine .bound fun fuel => (composed_memberMarksFrom _).bind fun marks => ?_
  refine .onKind fun next => ?_
  split
  · exact composed_classConstants hw h marks
  · exact composed_classMethod hw hstmt h marks
  · exact composed_classProperties hw h marks
  · exact composed_classProperties hw h marks
  · exact composed_classProperties hw h marks
  · exact composed_reject

lemma composed_membersFrom (h : OpenClass) (fuel : Nat) : Composed w (membersFrom stmt h fuel) := by
  induction fuel with
  | zero => exact composed_spent
  | succ fuel ih =>
      refine .onKind fun here => .ite (.pure _) ?_
      exact ((composed_classMember hw hstmt h).recover ()).bind fun _ => ih

lemma composed_classDeclaration : Composed w (classDeclaration stmt) := by
  have hbody (h : OpenClass) : Composed w (classBody stmt h) := by
    refine .require fun _ => .bound fun fuel => ?_
    refine (composed_membersFrom hw hstmt h fuel).bind fun _ => ?_
    exact .require fun _ => .pure _
  refine composed_note?.bind fun leading => (composed_classHeader hw).bind fun h => ?_
  exact ((hbody h).inClass h.id hw).bind fun _ => .pure _

end Members

/-! ### Inheritance -/

lemma steady_reportAll {position : Position} {causes : List Cause}
    (h : ∀ cause ∈ causes, cause.isOptional = false ∧ cause.isToken = false) :
    Steady w (reportAll position causes) := by
  induction causes with
  | nil => exact .pure _
  | cons cause causes ih =>
      obtain ⟨hcause, hcauses⟩ := List.forall_mem_cons.mp h
      exact (steady_report hcause.1 hcause.2).bind fun _ => ih hcauses

lemma isAboutParents_of_superclassFaults {t : ClassTable} {decl : ClassDef} {cause : Cause}
    (h : cause ∈ superclassFaults t decl) : cause.isAboutParents = true := by
  rw [superclassFaults] at h
  split at h
  · simp at h
  · split_ifs at h
    all_goals simp only [List.mem_singleton, List.not_mem_nil] at h
    all_goals exact h ▸ rfl

lemma isAboutParents_of_interfaceFaults {decl parent : ClassDef} {cause : Cause}
    (h : cause ∈ interfaceFaults decl parent) : cause.isAboutParents = true := by
  rw [interfaceFaults] at h
  split_ifs at h
  all_goals simp only [List.mem_singleton, List.not_mem_nil] at h
  all_goals exact h ▸ rfl

lemma isAboutParents_of_inheritanceFaults {t : ClassTable} {id : ClassId} {cause : Cause}
    (h : cause ∈ inheritanceFaults t id) : cause.isAboutParents = true := by
  rw [inheritanceFaults] at h
  split at h
  · simp at h
  · split_ifs at h
    · rw [List.mem_singleton.mp h]
      rfl
    · rw [List.mem_append, List.mem_append, List.mem_flatMap, List.mem_map] at h
      obtain (h | ⟨parent, -, h⟩) | ⟨m, -, rfl⟩ := h
      · exact isAboutParents_of_superclassFaults h
      · exact isAboutParents_of_interfaceFaults h
      · rfl

lemma isOptional_of_isAboutParents {cause : Cause} (h : cause.isAboutParents = true) :
    cause.isOptional = false ∧ cause.isToken = false := by
  cases cause <;> first | exact ⟨rfl, rfl⟩ | cases h

lemma checkInheritance_eq (id : ClassId) :
    checkInheritance id = look (fun s => (s.checked.contains id, s.env.classes)) >>= fun seen =>
      if seen.1 = true then Pure.pure ()
      else markChecked id >>= fun _ => classDef id >>= fun decl =>
        reportAll decl.position (inheritanceFaults seen.2 id) := by
  funext s
  have hlook : look (fun s => (s.checked.contains id, s.env.classes)) s =
    .ok (s.checked.contains id, s.env.classes) s := rfl
  rw [checkInheritance, bind_of_ok (get_run s), bind_of_ok hlook]
  split <;> rfl

@[grind ←]
lemma steady_checkInheritance (hw : w ≠ .expression) (id : ClassId) :
    Steady w (checkInheritance id) := by
  rw [checkInheritance_eq]
  refine (Steady.look _).bind fun seen => ?_
  split
  · exact .pure _
  · refine (Steady.markChecked id hw).bind fun _ => steady_classDef.bind fun decl => ?_
    exact steady_reportAll fun cause h =>
      isOptional_of_isAboutParents (isAboutParents_of_inheritanceFaults h)

lemma composed_classAhead (hw : w ≠ .expression) : Composed w classAhead :=
  (composed_classDeclaration hw fun reader h => by cases h).bind fun _ => .pure _

lemma composed_classStatement (hstmt : Composed .statement stmt) :
    Composed .statement (classStatement stmt) := by
  have hdeclaration : Composed .statement (classDeclaration (some stmt)) :=
    composed_classDeclaration Extent.statement_ne fun reader h => ⟨rfl, Option.some.inj h ▸ hstmt⟩
  refine hdeclaration.bind fun h => ?_
  exact (steady_checkInheritance Extent.statement_ne h.id).composed.bind fun _ => .pure _

/-! ### Statements -/

lemma composed_annotatedStatement (hstmt : Composed .statement stmt) :
    Composed .statement (annotatedStatement stmt) := by
  refine composed_cursor.bind fun c => .ite (composed_functionStatement hstmt) ?_
  exact .ite (composed_classStatement hstmt) (composed_variableStatement Extent.statement_ne)

lemma composed_byKind (hstmt : Composed .statement stmt) : Composed .statement (byKind stmt) := by
  refine .onKind fun next => ?_
  split
  case h_1 => exact composed_block hstmt
  case h_2 => exact composed_ifStatement hstmt
  case h_3 => exact composed_whileStatement hstmt
  case h_4 => exact composed_doStatement hstmt
  case h_5 => exact composed_forStatement hstmt
  case h_6 => exact composed_foreachStatement hstmt
  case h_7 => exact composed_switchStatement hstmt
  case h_8 => exact composed_jump
  case h_9 => exact composed_jump
  case h_10 => exact composed_returnStatement
  case h_11 => exact composed_throwStatement
  case h_12 => exact composed_exitStatement
  case h_13 => exact composed_tryStatement hstmt
  case h_14 => exact composed_echo
  case h_15 => exact composed_emptyStatement
  case h_16 => exact composed_functionStatement hstmt
  case h_21 => exact composed_constStatement Extent.statement_ne
  case h_22 => exact composed_annotatedStatement hstmt
  case h_23 => exact .ite composed_exprStatement composed_reject
  all_goals exact composed_classStatement hstmt

lemma composed_stmtWithin (depth : Nat) : Composed .statement (stmtWithin depth) := by
  induction depth with
  | zero => exact composed_spent
  | succ depth ih => exact (composed_byKind ih).recover _

/-- The reader of statements is put together from steps. -/
lemma composed_stmt : Composed .statement Check.stmt :=
  .bound composed_stmtWithin

/-! ### The whole file -/

lemma composed_declareHere (hw : w ≠ .expression) : Composed w declareHere := by
  refine composed_cursor.bind fun c => .ite (composed_classAhead hw) (.ite ?_ (.pure _))
  exact (composed_functionAhead hw).bind fun _ => .pure _

lemma composed_declarationsFrom (hw : w ≠ .expression) (fuel depth : Nat) :
    Composed w (declarationsFrom fuel depth) := by
  induction fuel generalizing depth with
  | zero => exact composed_spent
  | succ fuel ih =>
      have hnext (start : Nat) (declared : Option ClassId) : Composed w (do
          if depth = 0 && (← cursor).index != start then
            let rest ← declarationsFrom fuel depth
            return declared.toList ++ rest
          else
            let token ← advance
            declarationsFrom fuel (depthAfter depth token.kind)) := by
        refine composed_cursor.bind fun c => .ite ((ih _).bind fun rest => .pure _) ?_
        exact .advance fun token => ih _
      refine .onKind fun here => .ite (.pure _) ?_
      refine composed_cursor.bind fun c => .ite ?_ ?_
      · exact ((composed_declareHere hw).recover none).bind (hnext _)
      · exact (Composed.pure none).bind (hnext _)

lemma steady_checkAllInheritance (hw : w ≠ .expression) (ids : List ClassId) :
    Steady w (checkAllInheritance ids) := by
  induction ids with
  | nil => exact .pure _
  | cons id ids ih => exact (steady_checkInheritance hw id).bind fun _ => ih

lemma composed_enterClasses (hw : w ≠ .expression) : Composed w enterClasses :=
  composed_cursor.bind fun _ => composed_modifyEnv hw

lemma composed_declarations : Composed .file declarations :=
  composed_rewind.bind fun _ => .bound fun fuel =>
    (composed_declarationsFrom Extent.file_ne fuel 0).bind
      fun ids => (steady_checkAllInheritance Extent.file_ne ids).composed

/-- The analysis of a file is put together from steps. -/
lemma composed_program : Composed .file program := by
  refine (composed_enterClasses Extent.file_ne).bind fun _ => ?_
  refine composed_declarations.bind fun _ => composed_rewind.bind fun _ => ?_
  exact (composed_statements composed_stmt []).widen (.inr rfl) fun _ => rfl

end ScriptCheck.Check
