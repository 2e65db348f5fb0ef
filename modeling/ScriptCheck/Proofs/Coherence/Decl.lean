import ScriptCheck.Proofs.Coherence.Stmt

/-!
Declarations keep states coherent.

The header of a routine mentions only known classes (`Check.keepsAt_header`). The header of a class
may enter the class, and links it to known classes only (`Check.keeps_classHeader`). A member is
added to the class it names as its owner, and only if the class has none of the name
(`Check.keepsAt_addMember`). So also after a member that was broken off, and after a second
declaration of a name, every class fits into the table.
-/

namespace ScriptCheck

variable {n k : Nat}

/-- A class may be changed into a coherent one of the same name. -/
lemma Env.Coherent.modifyClass {env : Env} (h : env.Coherent) {id : ClassId}
    {f : ClassDef → ClassDef} (hname : ∀ decl, (f decl).name = decl.name)
    (hf : ∀ decl, env.classes.get? id = some decl → decl.Coherent env.classes.size id →
      (f decl).Coherent env.classes.size id) : (env.modifyClass id f).Coherent :=
  h.grow (h.classes.modify hname hf) (ClassTable.size_modify _ _ _).ge

lemma Env.size_modifyClass (env : Env) (id : ClassId) (f : ClassDef → ClassDef) :
    (env.modifyClass id f).classes.size = env.classes.size :=
  ClassTable.size_modify _ _ _

namespace Check

/-! ### Parameters -/

/-- A known type, if there is one, mentions only the first so many classes. -/
abbrev TypeWithin (n : Nat) (type : Option Ty) : Prop :=
  ∀ t ∈ type, t.Within n

lemma typeWithin_some {type : Ty} (h : type.Within n) : TypeWithin n (some type) := by
  rintro _ ⟨⟩
  exact h

lemma typeWithin_none : TypeWithin n none := by
  rintro _ ⟨⟩

lemma keepsAt_paramType? : KeepsAt n (TypeWithin n) paramType? := by
  refine .onKind fun here => ?_
  split
  case h_1 =>
    refine .after spares_note fun read => ?_
    cases read with
    | type text start =>
        exact (keepsAt_noteType text start).bind fun type htype =>
          .pure ⟨rfl, typeWithin_some htype⟩
    | _ => exact .peek peeks_position fun p => keeps_fail
  case h_4 => exact .pure ⟨rfl, typeWithin_none⟩
  all_goals
    refine .peek peeks_position fun start => .after spares_descriptor fun text => ?_
    exact (keepsAt_noteType text start).bind fun type htype => .pure ⟨rfl, typeWithin_some htype⟩

@[grind ←]
lemma spares_ellipsis : Spares ellipsis := by
  rw [ellipsis]
  grind

lemma keepsAt_declaredType? {declared : Option Ty} (hdeclared : TypeWithin n declared)
    {value : Facts} (hvalue : value.Within n) :
    KeepsAt n (TypeWithin n) (declaredType? declared value) := by
  cases declared with
  | some type => exact .after spares_checkType fun _ => .pure ⟨rfl, hdeclared⟩
  | none =>
      refine .pure ⟨rfl, ?_⟩
      split
      · exact typeWithin_none
      · exact typeWithin_some hvalue.type

lemma keepsAt_typeOrMixed {type : Option Ty} (htype : TypeWithin n type) :
    KeepsAt n (Ty.Within n) (typeOrMixed type) := by
  cases type with
  | some type => exact .pure ⟨rfl, htype type rfl⟩
  | none => exact keepsAt_mixed

lemma keepsAt_parameter : KeepsAt n (fun found => found.1.type.Within n) parameter := by
  refine keepsAt_paramType?.bind fun declared hdeclared => .takes fun _ => ?_
  refine .after spares_ellipsis fun _ => .require fun name => ?_
  refine .takes fun hasValue => ?_
  split
  · refine keepsAt_expr.bind fun value hvalue => ?_
    refine (keepsAt_declaredType? hdeclared hvalue).bind fun type htype => ?_
    exact (keepsAt_typeOrMixed htype).bind fun known hknown => .pure ⟨rfl, hknown⟩
  · exact (keepsAt_typeOrMixed hdeclared).bind fun known hknown => .pure ⟨rfl, hknown⟩

lemma keepsAt_paramsFrom (depth : Nat) {params : List Parameter}
    (hparams : ∀ p ∈ params, p.type.Within n) (isVariadic : Bool) :
    KeepsAt n (fun found => ∀ p ∈ found.1, p.type.Within n)
      (paramsFrom depth params isVariadic) := by
  induction depth generalizing params isVariadic with
  | zero => exact keeps_spent
  | succ depth ih =>
      refine .peek peeks_current fun token => ?_
      split
      case isTrue => exact .pure ⟨rfl, hparams⟩
      case isFalse =>
        split
        case isTrue => exact .peek peeks_positionOf fun p => keeps_fail
        case isFalse =>
          refine keepsAt_parameter.bind fun found hfound => ?_
          have hall : ∀ p ∈ params ++ [found.1], p.type.Within n := forall_mem_concat hparams hfound
          refine .takes fun hasMore => ?_
          split
          case isTrue => exact ih hall _
          case isFalse => exact .pure ⟨rfl, hall⟩

lemma keepsAt_params : KeepsAt n (fun found => ∀ p ∈ found.1, p.type.Within n) params := by
  refine .require fun _ => .bound fun depth => ?_
  refine (keepsAt_paramsFrom depth (List.forall_mem_nil _) false).bind fun found hfound => ?_
  exact .require fun _ => .pure ⟨rfl, hfound⟩

/-! ### Headers of routines -/

lemma keepsAt_knownClasses (names : List NameAt) :
    KeepsAt n (fun found => ∀ id ∈ found, id < n) (knownClasses names) := by
  induction names with
  | nil => exact .pure ⟨rfl, List.forall_mem_nil _⟩
  | cons name names ih =>
      refine (keepsAt_classNamed? name.name).bind fun found hfound => ?_
      refine .when spares_report fun _ => ih.bind fun rest hrest => .pure ⟨rfl, ?_⟩
      exact List.forall_mem_append.mpr ⟨fun id hid => hfound id (Option.mem_toList.mp hid), hrest⟩

@[grind ←]
lemma spares_resultNote? : Spares resultNote? := by
  rw [resultNote?]
  grind

@[grind ←]
lemma spares_notesFrom (depth : Nat) : Spares (notesFrom depth) := by
  induction depth with
  | zero => exact spares_throw
  | succ depth ih =>
      rw [notesFrom]
      grind

/-- The classes in the contract are among the first so many. -/
structure Contract.Within (n : Nat) (contract : Contract) : Prop where
  result : ∀ result ∈ contract.result, TypeWithin n result
  throws : ∀ id ∈ contract.throws, id < n

lemma keepsAt_applyNotes (p : Position) {contract : Contract} (hcontract : contract.Within n)
    {notes : List Note} : KeepsAt n (Contract.Within n) (applyNotes p contract notes) := by
  induction notes generalizing contract with
  | nil => exact .pure ⟨rfl, hcontract⟩
  | cons note notes ih =>
      cases note with
      | type text start =>
          refine (keepsAt_noteType text start).bind fun type htype => ih ⟨?_, hcontract.throws⟩
          rintro _ ⟨⟩
          exact typeWithin_some htype
      | void =>
          refine ih ⟨?_, hcontract.throws⟩
          rintro _ ⟨⟩
          exact typeWithin_none
      | throws names =>
          refine (keepsAt_knownClasses names).bind fun classes hclasses => ih ⟨hcontract.result, ?_⟩
          exact List.forall_mem_append.mpr ⟨hcontract.throws, hclasses⟩
      | unchecked => exact .after spares_report fun _ => ih hcontract

lemma keepsAt_header (leading : Option Note) :
    KeepsAt n (fun found => found.signature.Within n) (header leading) := by
  refine .require fun _ => .takes fun _ => ?_
  refine .require fun name => .peek peeks_positionOf fun p => ?_
  refine keepsAt_params.bind fun found hfound => .after spares_resultNote? fun result => ?_
  refine .bound fun depth => .after (spares_notesFrom depth) fun trailing => ?_
  have hempty : Contract.Within n {} := ⟨by rintro _ ⟨⟩, List.forall_mem_nil _⟩
  refine (keepsAt_applyNotes p hempty).bind fun contract hcontract => ?_
  have hlast : ∀ type, TypeWithin n type →
      Signature.Within n ⟨found.1, type, contract.throws, found.2⟩ :=
    fun type htype => ⟨hfound, htype, hcontract.throws⟩
  cases hresult : contract.result with
  | some type => exact .pure ⟨rfl, hlast type (hcontract.result type hresult)⟩
  | none =>
      have hmixed : KeepsAt n (TypeWithin n) (some <$> mixed) :=
        Keeps.map keepsAt_mixed fun k type _ htype => ⟨htype.1, typeWithin_some htype.2⟩
      exact hmixed.bind fun type htype => .pure ⟨rfl, hlast type htype⟩

lemma keepsAt_enterFunction {h : RoutineHeader} (hsignature : h.signature.Within n) :
    KeepsAt n (fun _ => True) (enterFunction h) := by
  refine .get fun s _ _ => ?_
  cases s.env.function? h.name with
  | some known => exact .unless spares_report fun _ => .pure ⟨rfl, trivial⟩
  | none =>
      refine keepsAt_modifyEnv fun env henv hsize => ?_
      rw [Env.classes_addFunction]
      exact ⟨henv.addFunction (hsize ▸ hsignature), hsize⟩

/-! ### Bodies of routines -/

@[grind ←]
lemma spares_reportUndeclared (h : RoutineHeader) {ids : List ClassId} :
    Spares (reportUndeclared h ids) := by
  induction ids with
  | nil => exact .pure
  | cons id ids ih =>
      rw [reportUndeclared]
      grind

@[grind ←]
lemma spares_checkExit (h : RoutineHeader) (exits : Exits) : Spares (checkExit h exits) := by
  have hthrows : Spares (do
      if (← get).options.reportsThrows then
        reportUndeclared h (undeclared (← classes) exits.raises h.signature.throws).elems) := by
    refine peeks_get.spares.bind fun s => ?_
    split
    · exact peeks_classes.spares.bind fun t => spares_reportUndeclared h
    · exact .pure
  rw [checkExit]
  cases h.signature.resultType with
  | none => exact hthrows
  | some type =>
      dsimp only
      split
      · exact spares_report.bind fun _ => hthrows
      · exact hthrows

lemma keepsAt_bodyType {param : Parameter} (hparam : param.type.Within n) {isVariadic : Bool} :
    KeepsAt n (Ty.Within n) (bodyType param isVariadic) := by
  rw [bodyType]
  exact .ite keepsAt_typeOf (.pure ⟨rfl, hparam⟩)

lemma keepsAt_setParams {isVariadic : Bool} {params : List Parameter}
    (hparams : ∀ p ∈ params, p.type.Within n) :
    KeepsAt n (fun _ => True) (setParams isVariadic params) := by
  induction params with
  | nil => exact .pure ⟨rfl, trivial⟩
  | cons param params ih =>
      obtain ⟨hparam, hrest⟩ := List.forall_mem_cons.mp hparams
      refine (keepsAt_bodyType hparam).bind fun type htype => ?_
      exact (keepsAt_setVariable _ htype true).bind fun _ _ => ih hrest

@[grind ←]
lemma spares_passBlock : Spares passBlock := by
  rw [passBlock]
  grind

@[grind ←]
lemma spares_note? : Spares note? := by
  rw [note?]
  grind

lemma keeps_routineBody {stmt : StmtReader} (hstmt : ∀ n, Keeps n Exits.Within stmt)
    {h : RoutineHeader} (hsignature : h.signature.Within n) {owner : Option ClassId}
    (howner : ∀ id ∈ owner, id < n) (isStatic : Bool) :
    Keeps n (fun _ _ => True) (routineBody stmt h owner isStatic) := by
  have hbody : Keeps n Exits.Within (do
      setParams h.signature.isVariadic h.signature.params
      block stmt) :=
    (keepsAt_setParams hsignature.params).bind fun _ _ => keeps_block hstmt
  refine (hbody.inRoutine ⟨hsignature, howner⟩).bind fun k exits _ _ => ?_
  exact (spares_checkExit h exits).keepsAt.mono fun _ _ _ _ => trivial

lemma keepsAt_functionAhead : KeepsAt n (fun _ => True) functionAhead := by
  refine .after spares_note? fun leading => (keepsAt_header leading).bind fun h hsignature => ?_
  exact (keepsAt_enterFunction hsignature).bind fun _ _ => spares_passBlock.keepsAt

lemma keeps_functionStatement {stmt : StmtReader} (hstmt : ∀ n, Keeps n Exits.Within stmt) :
    Keeps n Exits.Within (functionStatement stmt) := by
  refine .after spares_note? fun leading => (keepsAt_header leading).bind fun h hsignature => ?_
  refine (keepsAt_enterFunction hsignature).bind fun _ _ => ?_
  refine (keeps_routineBody hstmt hsignature (by rintro _ ⟨⟩) false).bind fun k _ _ _ => ?_
  exact .pure .passing

/-! ### Headers of classes -/

@[grind ←]
lemma spares_classMarksFrom {depth : Nat} (found : ClassMarks) :
    Spares (classMarksFrom depth found) := by
  induction depth generalizing found with
  | zero => exact spares_throw
  | succ depth ih =>
      refine peeks_kind.spares.bind fun here => ?_
      split
      · exact spares_advance.bind fun _ => ih _
      · exact spares_advance.bind fun _ => ih _
      · exact .pure

@[grind ←]
lemma spares_interfaceMark : Spares interfaceMark := by
  refine spares_advance.bind fun token => ?_
  split
  · exact .pure
  · exact .pure
  · exact spares_rejectToken token

@[grind ←]
lemma spares_uncheckedMark (leading : Option Note) (p : Position) :
    Spares (uncheckedMark leading p) := by
  cases leading with
  | none => exact .pure
  | some note =>
      cases note with
      | unchecked => exact .pure
      | _ => exact spares_report.bind fun _ => .pure

@[grind ←]
lemma spares_singleName : Spares singleName := by
  rw [singleName]
  grind

@[grind ←]
lemma spares_parentNames (isInterface : Bool) : Spares (parentNames isInterface) := by
  rw [parentNames]
  grind

lemma keepsAt_knownParents {names : List NameAt} :
    KeepsAt n (fun found => ∀ id ∈ found, id < n) (knownParents names) := by
  induction names with
  | nil => exact .pure ⟨rfl, List.forall_mem_nil _⟩
  | cons name names ih =>
      refine .classes fun t _ hsize => ?_
      subst hsize
      refine .when spares_report fun _ => ih.bind fun rest hrest => .pure ⟨rfl, ?_⟩
      refine List.forall_mem_append.mpr ⟨fun id hid => ?_, hrest⟩
      exact ClassTable.lt_size_of_idOf? (Option.mem_toList.mp hid)

/-- The class of a name, entered if there is none, is in the table. -/
lemma keeps_classFor {name : String} {isInterface : Bool} {p : Position} :
    Keeps n (fun k id => id < k) (classFor name isInterface p) := by
  intro s hs hsize
  subst hsize
  rw [classFor, bind_of_ok (get_run s)]
  cases hfind : s.env.classes.idOf? name with
  | some id =>
      refine ⟨hs, le_rfl, fun id' s' hrun => ?_⟩
      cases hrun
      exact ClassTable.lt_size_of_idOf? hfind
  | none =>
      have hle := s.env.classes.size_add_le (.stub name isInterface p)
      have henv := hs.env.grow (hs.env.classes.addStub name isInterface p) hle
      refine ⟨hs.grow henv hle, hle, fun id' s' hrun => ?_⟩
      cases hrun
      exact ClassTable.lt_size_add

lemma keeps_classHeader (leading : Option Note) :
    Keeps n (fun k h => h.id < k) (classHeader leading) := by
  refine .bound fun depth => .after (spares_classMarksFrom _) fun marks => ?_
  refine .after spares_interfaceMark fun isInterface => .require fun name => ?_
  refine .peek peeks_positionOf fun start => ?_
  refine .after (spares_uncheckedMark leading start) fun isUnchecked => ?_
  refine .after (spares_parentNames isInterface) fun parents => ?_
  refine keeps_classFor.bind fun k id hk hid => .peek peeks_classes fun t => ?_
  dsimp only
  split
  · exact .unless spares_report fun _ => .pure hid
  · refine keepsAt_knownParents.bind fun superclass hsuper => ?_
    refine keepsAt_knownParents.bind fun interfaces hinterfaces => ?_
    refine (keepsAt_modifyEnv fun env henv hsize => ?_).bind fun _ _ => .pure hid
    subst hsize
    refine ⟨henv.modifyClass (fun decl => rfl) fun decl _ hdecl => { hdecl with parents := ?_ },
      env.size_modifyClass _ _⟩
    refine List.forall_mem_append.mpr ⟨fun parent hparent => ?_, hinterfaces⟩
    exact hsuper parent (List.mem_of_mem_head? (Option.mem_toList.mp hparent))

/-! ### Members -/

@[grind ←]
lemma spares_memberMarksFrom {depth : Nat} (found : MemberMarks) :
    Spares (memberMarksFrom depth found) := by
  induction depth generalizing found with
  | zero => exact spares_throw
  | succ depth ih =>
      refine peeks_kind.spares.bind fun here => ?_
      split
      case h_7 => exact spares_note.bind fun read => ih _
      case h_8 => exact .pure
      all_goals exact spares_advance.bind fun _ => ih _

lemma keepsAt_memberType? (note : Option Note) : KeepsAt n (TypeWithin n) (memberType? note) := by
  cases note with
  | none => exact .pure ⟨rfl, typeWithin_none⟩
  | some note =>
      cases note with
      | type text start =>
          exact (keepsAt_noteType text start).bind fun type htype =>
            .pure ⟨rfl, typeWithin_some htype⟩
      | _ => exact .peek peeks_position fun p => keeps_fail

@[grind ←]
lemma spares_classDef (id : ClassId) : Spares (classDef id) := by
  rw [classDef]
  grind

/-- A member is added only if its name is not taken at that moment. -/
lemma keepsAt_addMember (h : OpenClass) {isTaken : ClassDef → Bool} {shown : String} (p : Position)
    {add : ClassDef → ClassDef} (hname : ∀ decl, (add decl).name = decl.name)
    (hadd : ∀ decl, decl.Coherent n h.id → isTaken decl = false → (add decl).Coherent n h.id) :
    KeepsAt n (fun _ => True) (addMember h isTaken shown p add) := by
  refine .ite ?_ (.pure ⟨rfl, trivial⟩)
  intro s hs hsize
  subst hsize
  rw [bind_of_ok (show classDef h.id s = .ok ((s.env.classes.get? h.id).getD default) s from rfl)]
  split
  case isTrue =>
    exact Spares.keepsAt ((peeks_className _).spares.bind fun _ => spares_report) s hs rfl
  case isFalse hfree =>
    have henv : (s.env.modifyClass h.id add).Coherent := by
      refine hs.env.modifyClass hname fun decl hdecl hcoherent => hadd decl hcoherent ?_
      rw [hdecl, Option.getD_some] at hfree
      exact Bool.eq_false_iff.mpr hfree
    have hsame := s.env.size_modifyClass h.id add
    refine ⟨hs.grow henv hsame.ge, hsame.ge, fun _ s' hrun => ?_⟩
    cases hrun
    exact ⟨hsame, trivial⟩

lemma keepsAt_constantsOf (h : OpenClass) {visibility : Visibility} {declared : Option Ty}
    (hdeclared : TypeWithin n declared) (depth : Nat) :
    KeepsAt n (fun _ => True) (constantsOf h visibility declared depth) := by
  induction depth with
  | zero => exact keeps_spent
  | succ depth ih =>
      refine .require fun name => .require fun _ => ?_
      refine keepsAt_expr.bind fun value hvalue => ?_
      refine .peek peeks_positionOf fun start => ?_
      have htype : (declared.getD value.type).Within n := by
        cases declared with
        | none => exact hvalue.type
        | some type => exact hdeclared type rfl
      refine (keepsAt_addMember h start ?_ fun decl hdecl hfree => ?_).bind fun _ _ => ?_
      · exact fun decl => rfl
      · exact hdecl.addConstant rfl htype hfree
      · exact .takes fun hasMore => .ite ih (.pure ⟨rfl, trivial⟩)

lemma keepsAt_classConstants (h : OpenClass) (marks : MemberMarks) :
    KeepsAt n (fun _ => True) (classConstants h marks) := by
  refine .require fun _ => ?_
  refine (keepsAt_memberType? marks.note).bind fun declared hdeclared => ?_
  refine .bound fun depth => ?_
  refine (keepsAt_constantsOf h hdeclared depth).bind fun _ _ => ?_
  exact .require fun _ => .pure ⟨rfl, trivial⟩

lemma keepsAt_propertiesOf (h : OpenClass) (marks : MemberMarks) {declared : Option Ty}
    (hdeclared : TypeWithin n declared) (depth : Nat) :
    KeepsAt n (fun _ => True) (propertiesOf h marks declared depth) := by
  induction depth with
  | zero => exact keeps_spent
  | succ depth ih =>
      have hmore : KeepsAt n (fun _ => True) (do
          if ← takes .comma then propertiesOf h marks declared depth) :=
        .takes fun hasMore => .ite ih (.pure ⟨rfl, trivial⟩)
      have hplain : KeepsAt n (TypeWithin n) (pure declared) := .pure ⟨rfl, hdeclared⟩
      refine .require fun name => .takes fun hasValue => ?_
      refine .ite (keepsAt_expr.bind fun value hvalue => ?_) (hplain.bind fun type htype => ?_)
      case' refine_1 => refine (keepsAt_declaredType? hdeclared hvalue).bind fun type htype => ?_
      all_goals
        refine .peek peeks_positionOf fun start => .ite ?_ hmore
        refine (keepsAt_typeOrMixed htype).bind fun known hknown => ?_
        refine (keepsAt_addMember h start ?_ fun decl hdecl hfree => ?_).bind fun _ _ => hmore
        · exact fun decl => rfl
        · exact hdecl.addProperty rfl hknown hfree

lemma keepsAt_classProperties (h : OpenClass) (marks : MemberMarks) :
    KeepsAt n (fun _ => True) (classProperties h marks) := by
  have hlast : ∀ declared, TypeWithin n declared → KeepsAt n (fun _ => True) (do
      propertiesOf h marks declared (← bound)
      let _ ← require .semicolon) := by
    intro declared hdeclared
    refine .bound fun depth => ?_
    refine (keepsAt_propertiesOf h marks hdeclared depth).bind fun _ _ => ?_
    exact .require fun _ => .pure ⟨rfl, trivial⟩
  refine (keepsAt_memberType? marks.note).bind fun noted hnoted => .onKind fun here => ?_
  split
  · exact hlast noted hnoted
  · refine .peek peeks_position fun start => .after spares_descriptor fun text => ?_
    have hnote : KeepsAt n (TypeWithin n) (some <$> noteType text start) :=
      Keeps.map (keepsAt_noteType text start) fun k type _ htype =>
        ⟨htype.1, typeWithin_some htype.2⟩
    exact hnote.bind hlast

section Bodies

variable {stmt : Option StmtReader} (hstmt : ∀ read ∈ stmt, ∀ n, Keeps n Exits.Within read)
include hstmt

lemma keeps_methodBody {h : OpenClass} (hid : h.id < n) {method : RoutineHeader}
    (hsignature : method.signature.Within n) (isStatic : Bool) :
    Keeps n (fun _ _ => True) (methodBody stmt h method isStatic) := by
  cases stmt with
  | none => exact spares_passBlock.keepsAt.mono fun _ _ _ _ => trivial
  | some read =>
      have howner : ∀ id ∈ some h.id, id < n := by
        rintro _ ⟨⟩
        exact hid
      refine .peek (peeks_className h.id) fun name => ?_
      refine keeps_routineBody (hstmt read rfl) ?_ howner isStatic
      exact hsignature

lemma keeps_classMethod {h : OpenClass} (hid : h.id < n) (marks : MemberMarks) :
    Keeps n (fun _ _ => True) (classMethod stmt h marks) := by
  refine (keepsAt_header marks.note).bind fun found hsignature => ?_
  refine .after (spares_classDef h.id) fun decl => ?_
  refine (keepsAt_addMember h _ ?_ fun decl hdecl hfree => ?_).bind fun _ _ => ?_
  · exact fun decl => rfl
  · exact hdecl.addMethod rfl hsignature hfree
  · have hbody := keeps_methodBody hstmt hid hsignature marks.isStatic
    refine .takes fun isOver => .ite (.pure trivial) (.ite ?_ hbody)
    refine .peek peeks_current fun token => .peek peeks_position fun p => ?_
    exact .after spares_fail fun _ => hbody

lemma keeps_classMember {h : OpenClass} (hid : h.id < n) :
    Keeps n (fun _ _ => True) (classMember stmt h) := by
  refine .bound fun depth => .after (spares_memberMarksFrom _) fun marks => ?_
  refine .onKind fun here => ?_
  split
  case h_1 => exact (keepsAt_classConstants h marks).mono fun _ _ _ _ => trivial
  case h_2 => exact keeps_classMethod hstmt hid marks
  case h_6 => exact keeps_reject
  all_goals exact (keepsAt_classProperties h marks).mono fun _ _ _ _ => trivial

/-- After a member that was broken off the class still fits into the table, which may have grown. -/
lemma keeps_membersFrom {h : OpenClass} (hid : h.id < n) (depth : Nat) :
    Keeps n (fun _ _ => True) (membersFrom stmt h depth) := by
  induction depth generalizing n with
  | zero => exact keeps_spent
  | succ depth ih =>
      refine .onKind fun here => .ite (.pure trivial) ?_
      refine ((keeps_classMember hstmt hid).recover fun _ _ => trivial).bind fun k _ hk _ => ?_
      exact ih (Nat.lt_of_lt_of_le hid hk)

lemma keeps_classBody {h : OpenClass} (hid : h.id < n) :
    Keeps n (fun _ _ => True) (classBody stmt h) := by
  refine .require fun _ => .bound fun depth => ?_
  refine (keeps_membersFrom hstmt hid depth).bind fun k _ _ _ => ?_
  exact .require fun _ => .pure trivial

lemma keeps_classDeclaration : Keeps n (fun k h => h.id < k) (classDeclaration stmt) := by
  refine .after spares_note? fun leading => (keeps_classHeader leading).bind fun k h _ hid => ?_
  refine ((keeps_classBody hstmt hid).inClass hid).bind fun l _ hl _ => ?_
  exact .pure (Nat.lt_of_lt_of_le hid hl)

end Bodies

/-! ### Classes -/

@[grind ←]
lemma spares_reportAll {p : Position} {causes : List Cause} : Spares (reportAll p causes) := by
  induction causes with
  | nil => exact .pure
  | cons cause causes ih =>
      rw [reportAll]
      grind

lemma keepsAt_checkInheritance {id : ClassId} (hid : id < n) :
    KeepsAt n (fun _ => True) (checkInheritance id) := by
  intro s hs hsize
  subst hsize
  rw [checkInheritance, bind_of_ok (get_run s)]
  split
  case isTrue => exact (.pure : Spares (pure ())).keepsAt s hs rfl
  case isFalse =>
    have hmarked : ({ s with checked := id :: s.checked } : State).Coherent :=
      { hs with checked := List.forall_mem_cons.mpr ⟨hid, hs.checked⟩ }
    exact Spares.keepsAt ((spares_classDef id).bind fun decl => spares_reportAll) _ hmarked rfl

lemma keeps_classAhead : Keeps n (fun k found => ∀ id ∈ found, id < k) classAhead := by
  have hnone : ∀ read ∈ (none : Option StmtReader), ∀ n, Keeps n Exits.Within read := by
    rintro _ ⟨⟩
  refine (keeps_classDeclaration hnone).bind fun k h _ hid => .pure ?_
  split
  · rintro _ ⟨⟩
    exact hid
  · rintro _ ⟨⟩

lemma keeps_classStatement {stmt : StmtReader} (hstmt : ∀ n, Keeps n Exits.Within stmt) :
    Keeps n Exits.Within (classStatement stmt) := by
  refine (keeps_classDeclaration ?_).bind fun k h _ hid => ?_
  · rintro _ ⟨⟩
    exact hstmt
  · exact (keepsAt_checkInheritance hid).bind fun _ _ => .pure .passing

end Check

end ScriptCheck
