import ScriptCheck.Proofs.Analysis.Decl.Composition
import ScriptCheck.Proofs.Layout.Stmt

/-!
The readers of functions and classes agree on relocated tokens, if the reader of statements that
they take does.

A name that is declared is never the first token of the file, since a keyword stands before it. So
the position of a declaration moves as those of reports do, and a declaration that is read again is
known by its new place just as by the old one (`agree_enterFunction`, `agree_classHeader`).
-/

namespace ScriptCheck

namespace Relocation

variable (r : Relocation)

/-- A header at its new place. -/
def header (h : RoutineHeader) : RoutineHeader := { h with position := r.position h.position }

/-- The names of parents at their new places. -/
def parentNames (names : Check.ParentNames) : Check.ParentNames where
  superclass := names.superclass.map r.nameAt
  interfaces := names.interfaces.map r.nameAt

/-- What stands before a member, at its new place. -/
def memberMarks (marks : Check.MemberMarks) : Check.MemberMarks :=
  { marks with note := marks.note.map r.note }

/-- The second header is the first at its new place, where a function or method may be declared. -/
def SameHeader (h h' : RoutineHeader) : Prop :=
  IsInnerPlace r.file r.tokens h.position ∧ h' = r.header h

/-- The second class is the first, and only one that a reading of the file declared is fresh. -/
def Law.SameClass {r : Relocation} (K : r.Law) (h h' : OpenClass) : Prop :=
  (h.isFresh = true → K.Fresh h.id) ∧ h' = h

end Relocation

namespace Check

open Relocation.Law (Agree AgreeIf)

variable {r : Relocation} {K : r.Law} {least : Nat} {stmt : StmtReader}

/-! ### Parameters -/

lemma agree_paramType? : K.Alike least Eq paramType? := by
  refine .onKind fun here => ?_
  have hdescriptor : K.Alike least (@Eq (Option Ty))
      (do
        let start ← position
        let text ← descriptor
        return some (← noteType text start)) := by
    refine agree_position.bind_maps fun start => agree_descriptor.bind_eq fun text => ?_
    exact (agree_noteType text start).bind_eq fun type => .pure rfl
  split
  · refine agree_note.bind_maps fun content => ?_
    cases content with
    | type text start => exact (agree_noteType text start).bind_eq fun type => .pure rfl
    | _ => exact agree_failHere rfl
  · exact hdescriptor
  · exact hdescriptor
  · exact .pure rfl

lemma agree_ellipsis : K.Alike least Eq ellipsis := by
  refine .onKind fun first => (agree_kindAhead 1).bind_eq fun second => ?_
  refine (agree_kindAhead 2).bind_eq fun third => .ite (fun _ => ?_) fun _ => .pure rfl
  refine .advance fun _ _ => .advance fun _ _ => ?_
  exact .advance fun _ _ => .pure rfl

lemma agree_declaredType? (declared : Option Ty) (value : Facts) :
    K.Agree least Eq (declaredType? declared value) (declaredType? declared (r.facts value)) := by
  cases declared with
  | none => exact .pure rfl
  | some type =>
      exact (agree_checkType type value.type value.position).bind_eq fun _ => .pure rfl

lemma agree_typeOrMixed (type : Option Ty) : K.Alike least Eq (typeOrMixed type) := by
  cases type with
  | none => exact agree_mixed
  | some type => exact .pure rfl

lemma agree_parameter : K.Alike least Eq parameter := by
  refine agree_paramType?.bind_eq fun declared => .takes fun byReference => ?_
  refine agree_ellipsis.bind_eq fun isVariadic => .require fun name _ => ?_
  refine .takes fun hasValue => ?_
  refine .ite (fun _ => agree_expr.bind_maps fun value => ?_) fun _ => ?_
  · refine (agree_declaredType? declared value).bind_eq fun type => ?_
    exact (agree_typeOrMixed type).bind_eq fun type => .pure rfl
  · exact (agree_typeOrMixed declared).bind_eq fun type => .pure rfl

lemma agree_paramsFrom (fuel : Nat) (params : List Parameter) (isVariadic : Bool) :
    K.Alike least Eq (paramsFrom fuel params isVariadic) := by
  induction fuel generalizing params isVariadic with
  | zero => exact agree_spent
  | succ fuel ih =>
      refine .current fun token _ => .ite (fun _ => .pure rfl) fun _ => ?_
      refine .ite (fun _ => ?_) fun _ => agree_parameter.bind_eq fun param => ?_
      · exact .positionOf fun p _ => agree_fail rfl p
      · exact .takes fun more => .ite (fun _ => ih _ _) fun _ => .pure rfl

lemma agree_params : K.Alike least Eq params := by
  refine .require fun _ _ => .bound fun n => ?_
  refine (agree_paramsFrom n [] false).bind_eq fun found => ?_
  exact .require fun _ _ => .pure rfl

/-! ### Headers -/

lemma agree_knownClasses (names : List NameAt) :
    K.Agree least Eq (knownClasses names) (knownClasses (names.map r.nameAt)) := by
  induction names with
  | nil => exact .pure rfl
  | cons name names ih =>
      rw [List.map_cons, knownClasses, knownClasses]
      refine agree_classNamed?.bind_eq fun found => .ite (fun _ => ?_) fun _ => ?_
      · refine (agree_report rfl name.position).bind_eq fun _ => ?_
        exact ih.bind_eq fun rest => .pure rfl
      · exact ih.bind_eq fun rest => .pure rfl

lemma agree_resultNote? : K.Alike least (Maps (Option.map r.note)) resultNote? := by
  refine .takes fun found => .ite (fun _ => ?_) fun _ => .pure rfl
  refine agree_position.bind_maps fun start => agree_descriptor.bind_eq fun text => .pure ?_
  show some _ = some (r.note _)
  split <;> rfl

lemma agree_notesFrom (fuel : Nat) : K.Alike least (Maps (List.map r.note)) (notesFrom fuel) := by
  induction fuel with
  | zero => exact agree_spent
  | succ fuel ih =>
      refine .onKind fun here => .ite (fun _ => ?_) fun _ => .pure rfl
      exact agree_note.bind_maps fun first => ih.bind_maps fun rest => .pure rfl

lemma agree_applyNotes (p : Position) (contract : Contract) (notes : List Note) :
    K.Agree least Eq (applyNotes p contract notes)
      (applyNotes (r.position p) contract (notes.map r.note)) := by
  induction notes generalizing contract with
  | nil => exact .pure rfl
  | cons content notes ih =>
      cases content with
      | type text start => exact (agree_noteType text start).bind_eq fun type => ih _
      | void => exact ih _
      | throws names => exact (agree_knownClasses names).bind_eq fun classes => ih _
      | unchecked => exact .report rfl fun _ => ih _

lemma agree_header (leading : Option Note) :
    K.Agree least r.SameHeader (header leading) (header (leading.map r.note)) := by
  refine agree_bind_require (by simp) fun _ _ _ => .takes fun _ => ?_
  refine .require fun name hname => ?_
  have hinner := hname.isInnerPlace (Nat.lt_of_lt_of_le Nat.zero_lt_one (le_max_right _ _))
  refine .positionOf fun p hp => agree_params.bind_eq fun params => ?_
  refine agree_resultNote?.bind_maps fun result => .bound fun n => ?_
  refine (agree_notesFrom n).bind_maps fun trailing => ?_
  have hnotes : (leading.map r.note).toList ++ (result.map r.note).toList ++ trailing.map r.note =
      (leading.toList ++ result.toList ++ trailing).map r.note := by
    cases leading <;> cases result <;> simp
  rw [hnotes]
  refine (agree_applyNotes p {} _).bind_eq fun contract => ?_
  cases contract.result with
  | some type => exact .pure ⟨hp ▸ hinner, rfl⟩
  | none =>
      have hmixed : K.Alike (max least 1) Eq (some <$> mixed) :=
        agree_mixed.map fun _ _ h => congrArg some h
      exact hmixed.bind_eq fun type => .pure ⟨hp ▸ hinner, rfl⟩

lemma agree_addFunction {f : FunctionDecl} :
    K.Agree least Eq (modifyEnv (·.addFunction f)) (modifyEnv (·.addFunction (r.function f))) :=
  fun s hs => results_changeEnv hs rfl (K.addFunction f hs.holds) (r.addFunction_env s.env f)

/-- A declaration is known by its place, before and after the relocation. -/
lemma origin_beq {p : Position} (hp : IsInnerPlace r.file r.tokens p) (q : Position) :
    (r.origin q == r.position p) = (q == p) := by
  rw [Bool.eq_iff_iff, beq_iff_eq, beq_iff_eq]
  exact r.origin_eq_iff p q hp

lemma agree_enterFunction {h : RoutineHeader} (hinner : IsInnerPlace r.file r.tokens h.position) :
    K.Agree least Eq (enterFunction h) (enterFunction (r.header h)) := by
  refine .look fun s hs => ?_
  have henv : (r.state s).env.function? (r.header h).name = (s.env.function? h.name).map r.function :=
    r.function?_env s.env h.name
  rw [henv]
  cases s.env.function? h.name with
  | none =>
      have hentry : (⟨h.name, h.signature, r.position h.position⟩ : FunctionDecl) =
          r.function ⟨h.name, h.signature, h.position⟩ := by
        rw [← r.origin_eq hinner]
        rfl
      show K.Agree least Eq _
        (modifyEnv (·.addFunction ⟨h.name, h.signature, r.position h.position⟩))
      rw [hentry]
      exact agree_addFunction
  | some known =>
      show K.Agree least Eq _ (if (r.origin known.position == r.position h.position) = true then _
        else _)
      rw [origin_beq hinner]
      exact .ite (fun _ => .pure rfl) fun _ => agree_report rfl h.position

/-! ### Bodies -/

lemma agree_reportUndeclared (h : RoutineHeader) {ids : List ClassId} :
    K.Agree least Eq (reportUndeclared h ids) (reportUndeclared (r.header h) ids) := by
  induction ids with
  | nil => exact .pure rfl
  | cons id ids ih =>
      refine (agree_className id).bind_eq fun name => ?_
      exact (agree_report rfl h.position).bind_eq fun _ => ih

lemma undeclared_relocate (t : ClassTable) (raises : NatSet) (declared : List ClassId) :
    undeclared (t.relocate r.origin) raises declared = undeclared t raises declared := by
  simp only [undeclared, ClassTable.isUnchecked_relocate, ClassTable.isSubclass_relocate]

lemma agree_checkExit (h : RoutineHeader) (exits : Exits) :
    K.Agree least Eq (checkExit h exits) (checkExit (r.header h) exits) := by
  have hthrows : K.Agree least Eq
      (do
        if (← get).options.reportsThrows then
          reportUndeclared h (undeclared (← classes) exits.raises h.signature.throws).elems)
      (do
        if (← get).options.reportsThrows then
          reportUndeclared (r.header h)
            (undeclared (← classes) exits.raises h.signature.throws).elems) := by
    refine .look fun s hs => .ite (fun _ => agree_classes.bind_maps fun t => ?_) fun _ => .pure rfl
    rw [undeclared_relocate]
    exact agree_reportUndeclared h
  have htype : (r.header h).signature.resultType = h.signature.resultType := rfl
  rw [checkExit, checkExit, htype]
  cases h.signature.resultType with
  | none => exact hthrows
  | some type =>
      exact .ite (fun _ => (agree_report rfl h.position).bind_eq fun _ => hthrows) fun _ => hthrows

lemma agree_bodyType (param : Parameter) {isVariadic : Bool} :
    K.Alike least Eq (bodyType param isVariadic) :=
  .ite (fun _ => agree_typeOf _) fun _ => .pure rfl

lemma agree_setParams {isVariadic : Bool} {params : List Parameter} :
    K.Alike least Eq (setParams isVariadic params) := by
  induction params with
  | nil => exact .pure rfl
  | cons param params ih =>
      refine (agree_bodyType param).bind_eq fun type => ?_
      exact agree_setVariable.bind_eq fun _ => ih

lemma agree_routineBody (hstmt : K.AgreeStmt stmt) (h : RoutineHeader) (owner : Option ClassId)
    (isStatic : Bool) : K.Agree least Eq (routineBody stmt h owner isStatic)
      (routineBody stmt (r.header h) owner isStatic) := by
  have hbody : K.Alike least Eq
      (do
        setParams h.signature.isVariadic h.signature.params
        block stmt) :=
    agree_setParams.bind_eq fun _ => agree_block hstmt
  exact (hbody.inRoutine _).bind_eq fun exits => agree_checkExit h exits

lemma agree_functionAhead : K.Alike least Eq functionAhead := by
  refine agree_note?.bind_maps fun leading => (agree_header leading).bind fun h _ hh => ?_
  obtain ⟨hinner, rfl⟩ := hh
  exact (agree_enterFunction hinner).bind_eq fun _ => agree_passBlock

lemma agree_functionStatement (hstmt : K.AgreeStmt stmt) :
    K.Alike least Eq (functionStatement stmt) := by
  refine agree_note?.bind_maps fun leading => (agree_header leading).bind fun h _ hh => ?_
  obtain ⟨hinner, rfl⟩ := hh
  refine (agree_enterFunction hinner).bind_eq fun _ => ?_
  exact (agree_routineBody hstmt h none false).bind_eq fun _ => .pure rfl

/-! ### Headers of classes -/

lemma agree_classMarksFrom (fuel : Nat) (found : ClassMarks) :
    K.Alike least Eq (classMarksFrom fuel found) := by
  induction fuel generalizing found with
  | zero => exact agree_spent
  | succ fuel ih =>
      refine .onKind fun here => ?_
      split
      · exact .advance fun _ _ => ih _
      · exact .advance fun _ _ => ih _
      · exact .pure rfl

lemma agree_interfaceMark : K.Alike least Eq interfaceMark := by
  refine .advance fun token _ => ?_
  rw [r.token_kind]
  split
  · exact .pure rfl
  · exact .pure rfl
  · exact agree_rejectToken token

/-- After the word `class` or `interface` the cursor is not on the first token. -/
lemma one_le_of_interfaceMark {s s' : State} {isInterface : Bool} (hs : s.cursor.IsProper)
    (h : interfaceMark s = .ok isInterface s') : 1 ≤ s'.cursor.index := by
  have hproceeds : Proceeds .statement s.cursor.remaining interfaceMark := by
    refine proceeds_advance.bind fun token => ?_
    split
    · exact .pure
    · exact .pure
    · exact consumes_rejectToken.reads
  have hne : s.cursor.kind ≠ .eof := by
    intro heof
    have hadvance : advance s = .ok s.cursor.current { s with cursor := s.cursor.advance } := rfl
    have hkind : s.cursor.current.kind = .eof := heof
    rw [interfaceMark, bind_of_ok hadvance, hkind] at h
    cases h
  have hrun := hproceeds s hs le_rfl
  rw [h] at hrun
  have hlt := hrun.2.2 hne
  omega

lemma agree_uncheckedMark (leading : Option Note) (p : Position) :
    K.Agree least Eq (uncheckedMark leading p)
      (uncheckedMark (leading.map r.note) (r.position p)) := by
  have hreport : K.Agree least Eq
      (do
        report (.invalidNote "only `unchecked` applies to classes") p
        return false)
      (do
        report (.invalidNote "only `unchecked` applies to classes") (r.position p)
        return false) :=
    .report rfl fun _ => .pure rfl
  cases leading with
  | none => exact .pure rfl
  | some content =>
      cases content with
      | unchecked => exact .pure rfl
      | _ => exact hreport

lemma agree_singleName : K.Alike least (Maps r.nameAt) singleName :=
  .require fun _ _ => .positionOf fun _ _ => .pure rfl

lemma agree_parentNames (isInterface : Bool) :
    K.Alike least (Maps r.parentNames) (parentNames isInterface) := by
  refine .takes fun isExtended => ?_
  extract_lets rest
  have hrest : ∀ names, K.Agree least (Maps r.parentNames) (rest names)
      (rest (names.map r.nameAt)) := by
    refine fun extended => .takes fun isImplemented => ?_
    extract_lets last last'
    have hlast : ∀ names, K.Agree least (Maps r.parentNames) (last names)
        (last' (names.map r.nameAt)) := by
      refine fun implemented => .ite (fun _ => .pure ?_) fun _ => .pure rfl
      simp [Maps, Relocation.parentNames]
    exact .ite (fun _ => agree_names.bind_maps hlast) fun _ => hlast []
  refine .ite (fun _ => ?_) fun _ => hrest []
  refine .ite (fun _ => agree_names.bind_maps hrest) fun _ => ?_
  exact agree_singleName.bind_maps fun name => hrest [name]

lemma agree_knownParents (names : List NameAt) :
    K.Agree least Eq (knownParents names) (knownParents (names.map r.nameAt)) := by
  induction names with
  | nil => exact .pure rfl
  | cons name names ih =>
      rw [List.map_cons, knownParents, knownParents]
      refine agree_classes.bind_maps fun t => ?_
      have hname : (r.nameAt name).name = name.name := rfl
      rw [hname, ClassTable.idOf?_relocate]
      refine .ite (fun _ => ?_) fun _ => ih.bind_eq fun rest => .pure rfl
      exact (agree_report rfl name.position).bind_eq fun _ => ih.bind_eq fun rest => .pure rfl

lemma stub_relocate (name : String) (isInterface : Bool) {p : Position}
    (hp : IsInnerPlace r.file r.tokens p) :
    ClassDef.stub name isInterface (r.position p) =
      (ClassDef.stub name isInterface p).relocate r.origin := by
  rw [← r.origin_eq hp]
  rfl

lemma agree_classFor {name : String} {isInterface : Bool} {p : Position}
    (hname : IsInnerName r.file r.tokens name p) :
    K.Agree least Eq (classFor name isInterface p) (classFor name isInterface (r.position p)) := by
  refine .get fun s hs => ?_
  have hid : (r.state s).env.classes.idOf? name = s.env.classes.idOf? name :=
    s.env.classes.idOf?_relocate r.origin name
  rw [hid]
  cases s.env.classes.idOf? name with
  | some id => exact .ok rfl hs
  | none =>
      have hadd := r.addClass_env s.env (.stub name isInterface p)
      rw [← stub_relocate name isInterface hname.isInnerPlace] at hadd
      exact results_changeEnv hs (congrArg Prod.fst hadd).symm
        (K.addClass isInterface hs.holds hname) (congrArg Prod.snd hadd)

lemma getD_relocate (decl : Option ClassDef) :
    (decl.map (.relocate r.origin)).getD default = (decl.getD default).relocate r.origin := by
  cases decl with
  | none => exact r.relocate_default.symm
  | some decl => rfl

/-- Declaring a class that is not declared yet. -/
lemma agreeIf_declare (isInterface isAbstract isFinal isUnchecked : Bool)
    (superclass : Option ClassId) (interfaces : List ClassId) {id : ClassId} {p : Position}
    (hp : IsInnerPlace r.file r.tokens p) :
    K.AgreeIf least (fun s => ∀ decl ∈ s.env.classes.get? id, decl.isDeclared = false)
      (fun _ _ => K.Fresh id)
      (modifyEnv (·.modifyClass id
        (.declare isInterface isAbstract isFinal isUnchecked p superclass interfaces)))
      (modifyEnv (·.modifyClass id
        (.declare isInterface isAbstract isFinal isUnchecked (r.position p) superclass
          interfaces))) := by
  intro s hs hundeclared
  obtain ⟨hfresh, hholds⟩ := K.declare isInterface isAbstract isFinal isUnchecked superclass
    interfaces hs.holds hundeclared hp
  have henv : (r.env s.env).modifyClass id
        (.declare isInterface isAbstract isFinal isUnchecked (r.position p) superclass interfaces) =
      r.env (s.env.modifyClass id
        (.declare isInterface isAbstract isFinal isUnchecked p superclass interfaces)) := by
    refine r.modifyClass_env fun decl _ => ?_
    rw [← r.origin_eq hp]
    rfl
  exact results_changeEnv hs hfresh hholds henv

lemma agree_classHeader (leading : Option Note) :
    K.Agree least K.SameClass (classHeader leading) (classHeader (leading.map r.note)) := by
  refine .bound fun n => (agree_classMarksFrom n {}).bind_eq fun marks => ?_
  refine agree_interfaceMark.bind_from (le_max_left _ _)
    (fun s _ _ hs hok => max_le ?_ (one_le_of_interfaceMark hs.proper hok)) ?_
  · exact (agree_interfaceMark.fits hs hok).reached
  rintro isInterface _ rfl
  refine (agree_requireKind _).bind ?_
  rintro name _ ⟨hkind, hhas, rfl⟩
  have hname := hhas.isInnerName (Nat.lt_of_lt_of_le Nat.zero_lt_one (le_max_right _ _)) hkind
  refine .positionOf fun start hstart => ?_
  rw [← hstart] at hname
  have hinner := hname.isInnerPlace
  refine (agree_uncheckedMark leading start).bind_eq fun isUnchecked => ?_
  refine (agree_parentNames isInterface).bind_maps fun parents => ?_
  refine (agree_classFor hname).bind_eq fun id => ?_
  intro s hs
  -- the table that is looked at has to be the one that is changed below
  refine AgreeIf.bind (P := fun _ => True) (Q := fun t s => s.env.classes = t)
    agree_classes.agreeIf (fun s t s' _ _ hok => ?_) (fun t _ h => ?_) s hs trivial
  · cases hok
    rfl
  rw [h, ClassTable.get?_relocate, getD_relocate]
  refine .ite (fun _ => Agree.agreeIf ?_) fun hundeclared => ?_
  · show K.Agree (max least 1) K.SameClass _
      (if (r.origin ((t.get? id).getD default).position == r.position start) = true then _ else _)
    rw [origin_beq hinner]
    refine .ite (fun _ => .pure ⟨nofun, rfl⟩) fun _ => ?_
    exact .report rfl fun _ => .pure ⟨nofun, rfl⟩
  -- looking up the parents leaves the table as it is
  · have hparents : ∀ (names : List NameAt) (s : State) (ids : List ClassId) (s' : State),
        K.Fits (max least 1) s → s.env.classes = t → knownParents names s = .ok ids s' →
        s'.env.classes = t :=
      fun _ _ _ _ _ ht hok =>
        (congrArg Env.classes (steady_knownParents.composed.env_of_ok hok)).trans ht
    refine AgreeIf.bind (agree_knownParents parents.superclass).agreeIf (hparents _) ?_
    rintro superclass _ rfl
    refine AgreeIf.bind (agree_knownParents parents.interfaces).agreeIf (hparents _) ?_
    rintro interfaces _ rfl
    refine AgreeIf.bind (Q := fun _ _ => True)
      (fun s hs ht => agreeIf_declare isInterface marks.isAbstract marks.isFinal isUnchecked
        superclass.head? interfaces hinner s hs fun decl hdecl => ?_)
      (fun _ _ _ _ _ _ => trivial) fun _ _ hfresh => Agree.agreeIf (.pure ⟨fun _ => hfresh, rfl⟩)
    rw [ht, Option.mem_def] at hdecl
    simpa [hdecl] using hundeclared

/-! ### Members of classes -/

lemma agree_memberMarksFrom (fuel : Nat) (found : MemberMarks) :
    K.Agree least (Maps r.memberMarks) (memberMarksFrom fuel found)
      (memberMarksFrom fuel (r.memberMarks found)) := by
  induction fuel generalizing found with
  | zero => exact agree_spent
  | succ fuel ih =>
      refine .onKind fun here => ?_
      split
      case h_7 => exact agree_note.bind_maps fun read => ih { found with note := some read }
      case h_8 => exact .pure rfl
      case h_1 => exact .advance fun _ _ => ih { found with visibility := .everyone }
      case h_2 => exact .advance fun _ _ => ih { found with visibility := .family }
      case h_3 => exact .advance fun _ _ => ih { found with visibility := .owner }
      case h_4 => exact .advance fun _ _ => ih { found with isStatic := true }
      case h_5 => exact .advance fun _ _ => ih { found with isAbstract := true }
      case h_6 => exact .advance fun _ _ => ih { found with isFinal := true }

lemma agree_memberType? (content : Option Note) :
    K.Agree least Eq (memberType? content) (memberType? (content.map r.note)) := by
  cases content with
  | none => exact .pure rfl
  | some content =>
      cases content with
      | type text start => exact (agree_noteType text start).bind_eq fun type => .pure rfl
      | _ => exact agree_failHere rfl

lemma agree_classDef (id : ClassId) : K.Alike least (Maps (.relocate r.origin)) (classDef id) := by
  refine agree_peek (fun _ => rfl) (fun _ => rfl) fun s hs => ?_
  have hget : (r.state s).env.classes.get? id = (s.env.classes.get? id).map (.relocate r.origin) :=
    s.env.classes.get?_relocate r.origin id
  rw [hget]
  exact getD_relocate _

lemma agree_addMember {h : OpenClass} (hfresh : h.isFresh = true → K.Fresh h.id)
    {isTaken isTaken' : ClassDef → Bool} {add add' : ClassDef → ClassDef} {shown : String}
    (p : Position) (hadd : AddsMember add)
    (htaken : ∀ decl, isTaken' (decl.relocate r.origin) = isTaken decl)
    (hadds : ∀ decl, add' (decl.relocate r.origin) = (add decl).relocate r.origin) :
    K.Agree least Eq (addMember h isTaken shown p add)
      (addMember h isTaken' shown (r.position p) add') := by
  refine .ite (fun hisFresh => (agree_classDef h.id).bind_maps fun decl => ?_) fun _ => .pure rfl
  rw [htaken]
  refine .ite (fun _ => ?_) fun _ s hs => ?_
  · exact (agree_className h.id).bind_eq fun name => agree_report rfl p
  · exact results_changeEnv hs rfl (K.addMember hs.holds (hfresh hisFresh) hadd)
      (r.modifyClass_env fun decl _ => hadds decl)

section Constants

variable (hleast : 0 < least) {h : OpenClass} (hfresh : h.isFresh = true → K.Fresh h.id)
include hleast hfresh

lemma agree_constantsOf {visibility : Visibility} {declared : Option Ty} (fuel : Nat) :
    K.Alike least Eq (constantsOf h visibility declared fuel) := by
  induction fuel with
  | zero => exact agree_spent
  | succ fuel ih =>
      refine .require fun name hname => .require fun _ _ => ?_
      refine agree_expr.bind_maps fun value => .positionOf fun p hp => ?_
      have horigin : r.origin p = r.position p := r.origin_eq (hp ▸ hname.isInnerPlace hleast)
      refine (agree_addMember hfresh p (.constant _) (fun decl => ?_) fun decl => ?_).bind_eq
        fun _ => .takes fun more => .ite (fun _ => ih) fun _ => .pure rfl
      · rw [ClassDef.declaredConstant?_relocate, Option.isSome_map, r.token_value]
      · simp only [ClassDef.relocate, List.map_append, List.map_cons, List.map_nil,
          Constant.relocate, horigin]
        rfl

lemma agree_classConstants (marks : MemberMarks) :
    K.Agree least Eq (classConstants h marks) (classConstants h (r.memberMarks marks)) := by
  refine .require fun _ _ => (agree_memberType? marks.note).bind_eq fun type => ?_
  refine .bound fun n => (agree_constantsOf hleast hfresh n).bind_eq fun _ => ?_
  exact .require fun _ _ => .pure rfl

lemma agree_propertiesOf (marks : MemberMarks) (declared : Option Ty) (fuel : Nat) :
    K.Agree least Eq (propertiesOf h marks declared fuel)
      (propertiesOf h (r.memberMarks marks) declared fuel) := by
  induction fuel with
  | zero => exact agree_spent
  | succ fuel ih =>
      refine .require fun name hname => .takes fun hasValue => ?_
      extract_lets -underBinder rest rest'
      have hrest : ∀ type, K.Agree least Eq (rest type) (rest' type) := by
        refine fun type => .positionOf fun p hp => ?_
        have horigin : r.origin p = r.position p := r.origin_eq (hp ▸ hname.isInnerPlace hleast)
        have hmore : K.Agree least Eq
            (takes .comma >>= fun more => if more then propertiesOf h marks declared fuel else pure ())
            (takes .comma >>= fun more =>
              if more then propertiesOf h (r.memberMarks marks) declared fuel else pure ()) :=
          .takes fun more => .ite (fun _ => ih) fun _ => .pure rfl
        refine .ite (fun _ => (agree_typeOrMixed type).bind_eq fun declared => ?_) fun _ => hmore
        refine (agree_addMember hfresh p (.property _) (fun decl => ?_) fun decl => ?_).bind_eq
          fun _ => hmore
        · rw [ClassDef.declaredProperty?_relocate, Option.isSome_map, r.token_value]
        · simp only [ClassDef.relocate, List.map_append, List.map_cons, List.map_nil,
            Property.relocate, horigin]
          rfl
      refine .ite (fun _ => agree_expr.bind_maps fun value => ?_) fun _ => hrest declared
      exact (agree_declaredType? declared value).bind_eq hrest

lemma agree_classProperties (marks : MemberMarks) :
    K.Agree least Eq (classProperties h marks) (classProperties h (r.memberMarks marks)) := by
  refine (agree_memberType? marks.note).bind_eq fun noted => .onKind fun here => ?_
  extract_lets rest rest'
  have hrest : ∀ declared, K.Agree least Eq (rest declared) (rest' declared) := by
    refine fun declared => .bound fun n => ?_
    refine (agree_propertiesOf hleast hfresh marks declared n).bind_eq fun _ => ?_
    exact .require fun _ _ => .pure rfl
  refine .ite (fun _ => hrest noted) fun _ => agree_position.bind_maps fun start => ?_
  refine agree_descriptor.bind_eq fun text => ?_
  refine (Agree.map (S := Eq) (agree_noteType text start) fun _ _ h => congrArg some h).bind_eq ?_
  exact hrest

end Constants

section Members

variable {stmt : Option StmtReader} (hstmt : ∀ stmt' ∈ stmt, K.AgreeStmt stmt')
include hstmt

lemma agree_methodBody (h : OpenClass) (method : RoutineHeader) {isStatic : Bool} :
    K.Agree least Eq (methodBody stmt h method isStatic)
      (methodBody stmt h (r.header method) isStatic) := by
  cases stmt with
  | none => exact agree_passBlock
  | some stmt =>
      refine (agree_className h.id).bind_eq fun name => ?_
      exact agree_routineBody (hstmt stmt rfl) { method with name := name ++ "::" ++ method.name } _ _

variable {h : OpenClass} (hfresh : h.isFresh = true → K.Fresh h.id)
include hfresh

lemma agree_classMethod (marks : MemberMarks) :
    K.Agree least Eq (classMethod stmt h marks) (classMethod stmt h (r.memberMarks marks)) := by
  refine (agree_header marks.note).bind fun found _ hfound => ?_
  obtain ⟨hinner, rfl⟩ := hfound
  have horigin : r.origin found.position = r.position found.position := r.origin_eq hinner
  refine (agree_classDef h.id).bind_maps fun decl => ?_
  refine (agree_addMember hfresh _ (.method _) (fun decl => ?_) fun decl => ?_).bind_eq
    fun _ => .takes fun ended => ?_
  · rw [ClassDef.declaredMethod?_relocate, Option.isSome_map]
    rfl
  · simp only [ClassDef.relocate, List.map_append, List.map_cons, List.map_nil, Method.relocate,
      horigin]
    rfl
  · refine .ite (fun _ => .pure rfl) fun _ => ?_
    refine .ite (fun _ => ?_) fun _ => agree_methodBody hstmt h found
    refine .current fun token _ => agree_position.bind_maps fun p => ?_
    exact (agree_fail rfl p).bind_eq fun _ => agree_methodBody hstmt h found

lemma agree_classMember (hleast : 0 < least) : K.Alike least Eq (classMember stmt h) := by
  refine .bound fun n => (agree_memberMarksFrom n {}).bind_maps fun marks => ?_
  refine .onKind fun here => ?_
  split
  · exact agree_classConstants hleast hfresh marks
  · exact agree_classMethod hstmt hfresh marks
  · exact agree_classProperties hleast hfresh marks
  · exact agree_classProperties hleast hfresh marks
  · exact agree_classProperties hleast hfresh marks
  · exact agree_reject

lemma agree_membersFrom (hleast : 0 < least) (fuel : Nat) :
    K.Alike least Eq (membersFrom stmt h fuel) := by
  induction fuel with
  | zero => exact agree_spent
  | succ fuel ih =>
      refine .onKind fun here => .ite (fun _ => .pure rfl) fun _ => ?_
      exact ((agree_classMember hstmt hfresh hleast).recover rfl).bind_eq fun _ => ih

lemma agree_classBody : K.Alike least Eq (classBody stmt h) := by
  have hleast : 0 < max least 1 := Nat.lt_of_lt_of_le Nat.zero_lt_one (le_max_right _ _)
  refine agree_bind_require (by simp) fun _ _ _ => .bound fun n => ?_
  refine (agree_membersFrom hstmt hfresh hleast n).bind_eq fun _ => ?_
  exact .require fun _ _ => .pure rfl

omit hfresh in
lemma agree_classDeclaration : K.Alike least K.SameClass (classDeclaration stmt) := by
  refine agree_note?.bind_maps fun leading => (agree_classHeader leading).bind fun h _ hh => ?_
  obtain ⟨hfresh, rfl⟩ := hh
  exact ((agree_classBody hstmt hfresh).inClass _).bind_eq fun _ => .pure ⟨hfresh, rfl⟩

end Members

/-! ### Inheritance -/

section Inheritance

variable (t : ClassTable) (φ : Position → Position)

lemma superclassFaults_relocate (decl : ClassDef) :
    superclassFaults (t.relocate φ) (decl.relocate φ) = superclassFaults t decl := by
  have hparent : (decl.relocate φ).superclass.bind (t.relocate φ).get? =
      (decl.superclass.bind t.get?).map (.relocate φ) := by
    show decl.superclass.bind _ = _
    cases decl.superclass with
    | none => rfl
    | some id => exact t.get?_relocate φ id
  rw [superclassFaults, superclassFaults, hparent]
  cases decl.superclass.bind t.get? with
  | none => rfl
  | some parent => rfl

lemma inheritanceFaults_relocate (id : ClassId) :
    inheritanceFaults (t.relocate φ) id = inheritanceFaults t id := by
  rw [inheritanceFaults, inheritanceFaults, t.get?_relocate]
  cases t.get? id with
  | none => rfl
  | some decl =>
      have hinterfaces : (decl.relocate φ).interfaces.filterMap (t.relocate φ).get? =
          (decl.interfaces.filterMap t.get?).map (.relocate φ) := by
        rw [List.map_filterMap]
        exact congrArg decl.interfaces.filterMap (funext fun id => t.get?_relocate φ id)
      simp only [Option.map_some, t.isCyclic_relocate, superclassFaults_relocate, hinterfaces,
        List.flatMap_map, t.unimplemented_relocate, List.map_map, Function.comp_def,
        t.nameOf_relocate]
      rfl

lemma not_isUnknownMember_of_isAboutParents {cause : Cause} (h : cause.isAboutParents = true) :
    cause.isUnknownMember = false := by
  cases cause <;> first | rfl | cases h

end Inheritance

lemma agree_reportAll {p : Position} {causes : List Cause}
    (hcauses : ∀ cause ∈ causes, cause.isUnknownMember = false) :
    K.Agree least Eq (reportAll p causes) (reportAll (r.position p) causes) := by
  induction causes with
  | nil => exact .pure rfl
  | cons cause causes ih =>
      refine (agree_report (hcauses cause (by simp)) p).bind_eq fun _ => ih fun c hc => ?_
      exact hcauses c (List.mem_cons_of_mem _ hc)

/-- Reports about a class stand where its declaration does. -/
lemma agree_reportInheritance {s : State} (hs : K.Fits least s) (id : ClassId) :
    K.Results least Eq
      (reportAll ((s.env.classes.get? id).getD default).position
        (inheritanceFaults s.env.classes id) s)
      (reportAll (((s.env.classes.relocate r.origin).get? id).getD default).position
        (inheritanceFaults (s.env.classes.relocate r.origin) id) (r.state s)) := by
  rw [inheritanceFaults_relocate, ClassTable.get?_relocate]
  by_cases hfaults : inheritanceFaults s.env.classes id = []
  · rw [hfaults]
    exact .ok rfl hs
  · cases hdecl : s.env.classes.get? id with
    | none => exact absurd (by rw [inheritanceFaults, hdecl]) hfaults
    | some decl =>
        have hplaced : (decl.relocate r.origin).position = r.position decl.position :=
          K.placed hs.holds hdecl hfaults
        simp only [Option.map_some, Option.getD_some, hplaced]
        exact agree_reportAll (fun _ h => not_isUnknownMember_of_isAboutParents
          (isAboutParents_of_inheritanceFaults h)) s hs

lemma agree_checkInheritance (id : ClassId) : K.Alike least Eq (checkInheritance id) := by
  refine .get fun s hs => ?_
  show K.Results least Eq ((if s.checked.contains id = true then pure () else _ : Check Unit) s)
    ((if s.checked.contains id = true then pure () else _ : Check Unit) (r.state s))
  by_cases hchecked : s.checked.contains id = true
  · rw [if_pos hchecked, if_pos hchecked]
    exact .ok rfl hs
  · rw [if_neg hchecked, if_neg hchecked]
    exact agree_reportInheritance (s := { s with checked := id :: s.checked }) { hs with } id

lemma agree_classAhead : K.Alike least Eq classAhead := by
  refine (agree_classDeclaration (by simp)).bind fun h _ hh => ?_
  obtain ⟨-, rfl⟩ := hh
  exact .pure rfl

lemma agree_classStatement {stmt : StmtReader} (hstmt : K.AgreeStmt stmt) :
    K.Alike least Eq (classStatement stmt) := by
  refine (agree_classDeclaration fun _ h => ?_).bind fun h _ hh => ?_
  · exact Option.mem_some_iff.mp h ▸ hstmt
  · rw [hh.2]
    exact (agree_checkInheritance h.id).bind_eq fun _ => .pure rfl

end Check

end ScriptCheck
