import Mathlib.Data.List.DropRight
import ScriptCheck.Proofs.Syntax.Header
import ScriptCheck.Proofs.Analysis.Decl.Progress
import ScriptCheck.Proofs.Class.GrowthLaw
import ScriptCheck.Proofs.Layout.Decl

/-!
The tokens that declarations take.

A declaration is read twice. The first reading passes over bodies, the second reads the statements in
them; since those take tokens with balanced braces, both end at the same place (`mirrors_body`). The
same holds of members (`mirrors_members`) and of whole functions and classes
(`mirrors_functionAhead`, `classAhead_echoes`).
-/

namespace ScriptCheck

open Cursor

/-! ### Names in the table of classes -/

lemma Text.nameKey_dropSeparators (name : String) :
    nameKey (dropSeparators name) = nameKey name := by
  rw [nameKey, nameKey, dropSeparators, dropSeparators, String.toList_ofList,
    List.dropWhile_idempotent]

namespace ClassTable

variable {t : ClassTable} {name : String}

/-- The class is declared in the table. -/
def Declares (t : ClassTable) (id : ClassId) : Prop :=
  ∃ decl, t.get? id = some decl ∧ decl.isDeclared = true

lemma exists_of_idOf? {id : ClassId} (h : t.idOf? name = some id) : ∃ decl, t.get? id = some decl := by
  obtain ⟨hlt, -⟩ := List.findIdx?_eq_some_iff_getElem.mp h
  exact ⟨_, List.getElem?_eq_getElem hlt⟩

/-- A class that is added for a name is the one that the name means. -/
lemma idOf?_add_stub (h : t.idOf? name = none) (isInterface : Bool) (p : Position) :
    t.Grows (t.add (.stub name isInterface p)).2 ∧
      (t.add (.stub name isInterface p)).2.idOf? name = some (t.add (.stub name isInterface p)).1 := by
  refine ⟨(Grows.refl t).add _, ?_⟩
  have hkey : Text.nameKey (ClassDef.stub name isInterface p).name = Text.nameKey name :=
    Text.nameKey_dropSeparators name
  have hnone : t.idOf? (ClassDef.stub name isInterface p).name = none := by
    rw [idOf?, hkey]
    exact h
  rw [add, hnone]
  dsimp only
  rw [idOf?] at h ⊢
  rw [List.findIdx?_append, h]
  simp [List.findIdx?_cons, hkey, size]

lemma declares_declare {id : ClassId} {decl : ClassDef} (hdecl : t.get? id = some decl)
    {isInterface isAbstract isFinal isUnchecked : Bool} {p : Position} {superclass : Option ClassId}
    {interfaces : List ClassId} :
    (t.modify id (.declare isInterface isAbstract isFinal isUnchecked p superclass
      interfaces)).Declares id := by
  refine ⟨.declare isInterface isAbstract isFinal isUnchecked p superclass interfaces decl, ?_, rfl⟩
  rw [get?] at hdecl
  rw [modify, get?, List.getElem?_modify, hdecl]
  simp

end ClassTable

namespace Check

variable {w : Tracking} {known : ClassTable} {P : Cursor → Prop} {step : Cursor → Cursor → Prop}
  {stmt : StmtReader}

/-! ### Sequences and blocks -/

lemma walks_statementsFrom (hstmt : Walks w step stmt) (ends : List Kind) (fuel : Nat)
    (exits : Exits) (reported : Bool) :
    Walks w step (statementsFrom stmt ends fuel exits reported) := by
  induction fuel generalizing exits reported with
  | zero => exact .spent
  | succ fuel ih =>
      refine .rest rests_kind fun here => ?_
      split
      · exact .pure
      · refine .rest peeks_position.rests fun start => ?_
        refine .rest peeks_declarationAhead.rests fun isDeclaration => hstmt.bind fun next => ?_
        split
        · exact ih _ _
        · split
          · exact ih _ _
          · exact .rest steady_reportUnreachable.rests fun _ => ih _ _

lemma walks_statements (hstmt : Walks w step stmt) (ends : List Kind) :
    Walks w step (statements stmt ends) :=
  .rest peeks_bound.rests fun fuel => walks_statementsFrom hstmt ends fuel _ _

lemma walks_block (hstep : AdmitsBlocks step) (hstmt : Walks known Balanced stmt) :
    WalksAt P known step (block stmt) :=
  walks_inBraces hstep (walks_statements hstmt _)

/-! ### Bodies -/

lemma walks_routineBody (hstep : AdmitsBlocks step) (hstmt : Walks known Balanced stmt)
    (h : RoutineHeader) (owner : Option ClassId) (isStatic : Bool) :
    Walks known step (routineBody stmt h owner isStatic) := by
  refine WalksAt.bind (.inRoutine _ ?_) fun exits => .of_rests (steady_checkExit h exits).rests
  exact .rest (steady_setParams Extent.statement_ne _ _).rests fun _ => walks_block hstep hstmt

/-- A body that can be read is in braces that are balanced. -/
lemma exists_of_routineBody {s t : State} {b : Unit} (hstmt : Walks known Balanced stmt)
    (hs : s.cursor.IsProper) (hknown : known.Grows s.env.classes) {h : RoutineHeader}
    {owner : Option ClassId} {isStatic : Bool} (hrun : routineBody stmt h owner isStatic s = .ok b t)
    (hunbroken : t.log.IsUnbroken) :
    ∃ d : Cursor, s.cursor.kind = .openCurly ∧ Balanced s.cursor.advance d ∧
      d.kind = .closeCurly ∧ t.cursor = d.advance := by
  obtain ⟨exits, t₁, hroutine, hexit⟩ := exists_of_bind hrun
  obtain ⟨b', t₂, hexit', hstays⟩ := (steady_checkExit h exits).rests t₁
  cases hexit'.symm.trans hexit
  obtain ⟨u, hbody, rfl⟩ := exists_of_within hroutine
  obtain ⟨a, u₁, hset, hblock⟩ := exists_of_bind hbody
  obtain ⟨a', u₂, hset', hstays'⟩ :=
    (steady_setParams Extent.statement_ne h.signature.isVariadic h.signature.params).rests _
  cases hset'.symm.trans hset
  have hu : u₁.cursor = s.cursor := hstays'.cursor
  obtain ⟨d, hopen, hinside, hclose, hend⟩ := exists_of_inBraces (walks_statements hstmt _)
    (by rwa [hu]) (hknown.trans hstays'.grows) hblock (hunbroken.of_isPrefix hstays.log)
  rw [hu] at hopen hinside
  exact ⟨d, hopen, hinside, hclose, hstays.cursor.trans hend⟩

/-- Passing over a body ends where reading it ends. -/
lemma mirrors_body (hstmt : Walks known Balanced stmt) (h : RoutineHeader) {owner : Option ClassId}
    {isStatic : Bool} :
    Mirrors known Balanced nothing passBlock (routineBody stmt h owner isStatic) := by
  refine ⟨walks_routineBody admitsBlocks_balanced hstmt h owner isStatic, ?_⟩
  intro s s' _ hs' hknown hknown' hcursor b t' hrun hgoes
  obtain ⟨d, hopen, hinside, hclose, hend⟩ :=
    exists_of_routineBody hstmt hs' hknown' hrun (hgoes trivial)
  rw [← hcursor] at hopen hinside
  refine ⟨(), { s with cursor := d.advance }, ?_, rfl, hend.symm, .refl _, .refl _⟩
  have hpass := passBlock_of_balanced (by rwa [hcursor]) hopen hinside hclose
  rw [passBlock, bind_of_ok (cursor_run s), hpass]
  rfl

/-! ### Functions -/

lemma balanced_require {kind : Kind} (h : kind.isBrace = false) :
    MirrorsAt P w Balanced id (require kind) (require kind) :=
  mirrors_require fun _ _ hkind => .single (hkind ▸ h)

lemma balanced_takes {kind : Kind} (h : kind.isBrace = false) :
    MirrorsAt P w Balanced id (takes kind) (takes kind) :=
  mirrors_takes fun _ _ hkind => .single (hkind ▸ h)

lemma balanced_advance {kind : Kind} (h : kind.isBrace = false) :
    MirrorsAt (fun c => P c ∧ c.kind = kind) w Balanced id advance advance :=
  mirrors_advance fun _ hc => .single (hc.2 ▸ h)

lemma mirrors_header (leading : Option Note) :
    Mirrors w Balanced nothing (header leading) (header leading) := by
  obtain ⟨rest, heq, hrest⟩ := header_eq leading
  rw [heq]
  exact (balanced_require rfl).bind_eq fun token => hrest admitsHeaders_balanced token

/-- Reads a function in its place, without its exits. -/
def functionHere (stmt : StmtReader) : Check Unit := do
  let leading ← note?
  let h ← header leading
  enterFunction h
  routineBody stmt h none false

lemma functionStatement_eq : functionStatement stmt = functionHere stmt >>= fun _ => pure .passing := by
  simp only [functionStatement, functionHere, bind_assoc]

/-- Reading a function ahead of its place ends where reading it in its place ends. -/
lemma mirrors_functionAhead (hstmt : Walks known Balanced stmt) :
    Mirrors known Balanced nothing functionAhead (functionHere stmt) := by
  refine (mirrors_note? admitsHeaders_balanced).bind_eq fun leading => ?_
  refine (mirrors_header leading).after fun h h' => ?_
  exact .rest (steady_enterFunction Extent.statement_ne h).rests
    (steady_enterFunction Extent.statement_ne h').rests fun _ _ => mirrors_body hstmt h'

/-! ### Headers of classes -/

lemma mirrors_classMarksFrom (fuel : Nat) (found : ClassMarks) :
    Mirrors w Balanced id (classMarksFrom fuel found) (classMarksFrom fuel found) := by
  induction fuel generalizing found with
  | zero => exact .spent
  | succ fuel ih =>
      refine .onKind fun here => ?_
      split
      · exact (balanced_advance rfl).bind_eq fun _ => ih _
      · exact (balanced_advance rfl).bind_eq fun _ => ih _
      · exact .pure rfl

/-- The token at the cursor is no brace, or any token may be taken. -/
def Ready (c : Cursor) : Prop := c.kind.isBrace = false ∨ AfterWord c

/-- The modifiers of a class are words after which any token is taken. -/
lemma ready_of_classMarksFrom {s t : State} {fuel : Nat} {found marks : ClassMarks}
    (hs : s.cursor.IsProper) (hready : Ready s.cursor)
    (hrun : classMarksFrom fuel found s = .ok marks t) : Ready t.cursor := by
  induction fuel generalizing found s with
  | zero => cases hrun
  | succ fuel ih =>
      have hnext : s.cursor.kind ∈ anyNext → Ready s.cursor.advance :=
        fun hword => .inr (afterWord_advance hs hword)
      rw [classMarksFrom, bind_of_ok (kind_run s)] at hrun
      generalize s.cursor.kind = here at hrun hnext
      split at hrun
      case h_1 =>
        obtain ⟨token, s₂, hadvance, hrun⟩ := exists_of_bind hrun
        cases hadvance
        exact ih (s := { s with cursor := s.cursor.advance }) hs.advance (hnext (by decide)) hrun
      case h_2 =>
        obtain ⟨token, s₂, hadvance, hrun⟩ := exists_of_bind hrun
        cases hadvance
        exact ih (s := { s with cursor := s.cursor.advance }) hs.advance (hnext (by decide)) hrun
      case h_3 =>
        cases hrun
        exact hready

lemma mirrors_interfaceMark (hP : ¬w.isStrict → ∀ c, P c → Ready c) :
    MirrorsAt P w Balanced id interfaceMark interfaceMark := by
  refine .onToken (fun hfree c hc => (hP hfree c hc).symm.imp_right .single) fun token => ?_
  split
  · exact .inl ⟨fun c _ hc => .single (by rw [Cursor.kind, hc, ‹token.kind = _›]; rfl), .pure rfl⟩
  · exact .inl ⟨fun c _ hc => .single (by rw [Cursor.kind, hc, ‹token.kind = _›]; rfl), .pure rfl⟩
  · exact .inr (refuses_rejectToken token)

lemma mirrors_uncheckedMark (leading : Option Note) (p : Position) :
    Mirrors w Balanced id (uncheckedMark leading p) (uncheckedMark leading p) := by
  rw [uncheckedMark.eq_def]
  split
  · exact .pure rfl
  · exact .rest (steady_report rfl rfl).rests (steady_report rfl rfl).rests fun _ _ => .pure rfl
  · exact .pure rfl

lemma mirrors_parentNames (isInterface : Bool) :
    Mirrors w Balanced id (parentNames isInterface) (parentNames isInterface) := by
  have hnames : Mirrors w Balanced id names names := mirrors_names.mono .of_simple
  have hname : Mirrors w Balanced id singleName singleName :=
    (balanced_require rfl).bind_eq fun token => (mirrors_positionOf token).bind_eq fun _ => .pure rfl
  refine (balanced_takes rfl).bind_eq fun hasExtends => ?_
  extract_lets finish
  have hfinish : ∀ parents, Mirrors w Balanced id (finish parents) (finish parents) := by
    intro parents
    refine (balanced_takes rfl).bind_eq fun hasImplements => ?_
    extract_lets last
    have hlast : ∀ found, Mirrors w Balanced id (last found) (last found) := by
      intro found
      dsimp only [last]
      split
      · exact .pure rfl
      · exact .pure rfl
    split
    · exact hnames.bind_eq hlast
    · exact hlast _
  split
  · split
    · exact hnames.bind_eq hfinish
    · exact hname.bind_eq fun name => hfinish _
  · exact hfinish _

/-- The words of the header of a class. -/
structure ClassWords where
  marks : ClassMarks
  isInterface : Bool
  name : String
  start : Position
  isUnchecked : Bool
  parents : ParentNames

/-- Reads the words of the header of a class. -/
def classWords (leading : Option Note) : Check ClassWords := do
  let marks ← classMarksFrom (← bound) {}
  let isInterface ← interfaceMark
  let name ← require .name
  let start ← positionOf name
  let isUnchecked ← uncheckedMark leading start
  let parents ← parentNames isInterface
  return ⟨marks, isInterface, name.value, start, isUnchecked, parents⟩

/-- Finds the class of a header, and declares it if its name is not declared yet. -/
def openClass (words : ClassWords) : Check OpenClass := do
  let id ← classFor words.name words.isInterface words.start
  let decl := ((← classes).get? id).getD default
  if decl.isDeclared then
    unless decl.position == words.start do
      report (.repeatedClass words.name) words.start
    return ⟨id, false⟩
  else
    let superclass ← knownParents words.parents.superclass
    let interfaces ← knownParents words.parents.interfaces
    modifyEnv (·.modifyClass id (.declare words.isInterface words.marks.isAbstract
      words.marks.isFinal words.isUnchecked words.start superclass.head? interfaces))
    return ⟨id, true⟩

lemma classHeader_eq (leading : Option Note) :
    classHeader leading = classWords leading >>= openClass := by
  simp only [classHeader, classWords, openClass, bind_assoc, pure_bind]
  rfl

lemma mirrors_classWords (hP : ¬w.isStrict → ∀ c, P c → Ready c) (leading : Option Note) :
    MirrorsAt P w Balanced id (classWords leading) (classWords leading) := by
  refine .onPeek (F := fun c => c.remaining + 1) (fun _ => rfl) fun fuel => ?_
  refine (mirrors_classMarksFrom fuel _).here.bindAt (Q := fun _ c => ¬w.isStrict → Ready c)
    (fun s marks t hs' hs hrun hfree => ?_) fun marks marks' hmarks => ?_
  · exact ready_of_classMarksFrom hs (hP hfree _ hs'.1) hrun
  obtain rfl : marks = marks' := hmarks
  refine (mirrors_interfaceMark fun hfree c hc => hc hfree).bind_eq fun isInterface => ?_
  refine (balanced_require rfl).bind_eq fun name => (mirrors_positionOf name).bind_eq fun start => ?_
  refine (mirrors_uncheckedMark leading start).bind_eq fun isUnchecked => ?_
  exact (mirrors_parentNames isInterface).bind_eq fun parents => .pure rfl

/-- The result is a class that the name means and that is declared. -/
def OpensNamed (name : String) (m : Check OpenClass) : Prop :=
  ∀ s, ∃ h t, m s = .ok h t ∧ Stays s t ∧ t.env.classes.idOf? name = some h.id ∧
    t.env.classes.Declares h.id

lemma classFor_run (name : String) (isInterface : Bool) (p : Position) (s : State) :
    ∃ id t, classFor name isInterface p s = .ok id t ∧ Stays s t ∧
      t.env.classes.idOf? name = some id := by
  rw [classFor, bind_of_ok (get_run s)]
  cases hfound : s.env.classes.idOf? name with
  | some id => exact ⟨id, s, rfl, .refl s, hfound⟩
  | none =>
      obtain ⟨hgrows, hid⟩ := ClassTable.idOf?_add_stub hfound isInterface p
      exact ⟨_, _, rfl, ⟨rfl, List.prefix_refl _, hgrows, .refl _⟩, hid⟩

lemma opensNamed_openClass (words : ClassWords) : OpensNamed words.name (openClass words) := by
  intro s
  obtain ⟨id, s₁, hfor, hstays, hid⟩ := classFor_run words.name words.isInterface words.start s
  rw [openClass, bind_of_ok hfor, bind_of_ok (classes_run s₁)]
  obtain ⟨decl, hdecl⟩ := ClassTable.exists_of_idOf? hid
  rw [hdecl, Option.getD_some]
  dsimp only
  split
  case isTrue hdeclared =>
    -- a class that is declared stays so: a report may be added, and nothing else
    have hrests : RestsWith (· = ⟨id, false⟩) (do
        unless decl.position == words.start do report (.repeatedClass words.name) words.start
        return (⟨id, false⟩ : OpenClass) : Check OpenClass) := by
      split
      · exact .pure rfl
      · exact .after (steady_report rfl rfl).rests fun _ => .pure rfl
    obtain ⟨h, s₂, hrun, rfl, hstays₂⟩ := hrests s₁
    refine ⟨_, s₂, hrun, hstays.trans hstays₂, hstays₂.grows.idOf?_eq hid, ?_⟩
    obtain ⟨decl', hdecl', hheader⟩ := hstays₂.grows.header_eq hdecl hdeclared
    exact ⟨decl', hdecl', (ClassDef.isDeclared_of_header_eq hheader).trans hdeclared⟩
  case isFalse hundeclared =>
    obtain ⟨superclass, s₂, hsuper, hstays₂⟩ := steady_knownParents.rests s₁
    obtain ⟨interfaces, s₃, hinter, hstays₃⟩ := steady_knownParents.rests s₂
    rw [bind_of_ok hsuper, bind_of_ok hinter]
    have henv : s₃.env = s₁.env := (steady_knownParents.composed.env_of_ok hinter).trans
      (steady_knownParents.composed.env_of_ok hsuper)
    have hdecl₃ : s₃.env.classes.get? id = some decl := by
      rw [henv]
      exact hdecl
    have hgrows : s₃.env.classes.Grows (s₃.env.classes.modify id (.declare words.isInterface
        words.marks.isAbstract words.marks.isFinal words.isUnchecked words.start superclass.head?
        interfaces)) := by
      refine (ClassTable.Grows.refl _).declare _ _ _ _ _ _ _ fun decl' hdecl' => ?_
      obtain rfl := Option.some.inj (hdecl₃.symm.trans hdecl')
      exact Bool.eq_false_iff.mpr hundeclared
    refine ⟨_, _, rfl, ?_, ?_, ?_⟩
    · exact (hstays.trans (hstays₂.trans hstays₃)).trans
        ⟨rfl, List.prefix_refl _, hgrows, .refl _⟩
    · refine hgrows.idOf?_eq ?_
      rw [henv]
      exact hid
    · exact ClassTable.declares_declare hdecl₃

/-! ### Members -/

lemma mirrors_memberMarksFrom (fuel : Nat) (found : MemberMarks) :
    Mirrors w Balanced id (memberMarksFrom fuel found) (memberMarksFrom fuel found) := by
  induction fuel generalizing found with
  | zero => exact .spent
  | succ fuel ih =>
      refine .onKind fun here => ?_
      split
      iterate 6 exact (balanced_advance rfl).bind_eq fun _ => ih _
      · exact balanced_note.here.bind_eq fun read => ih _
      · exact .pure rfl

lemma mirrors_memberType? (note : Option Note) :
    Mirrors w Balanced nothing (memberType? note) (memberType? note) := by
  rw [memberType?.eq_def]
  split
  · exact .pure rfl
  · exact .resting (by grind) (by grind)
  · exact (Refuses.failAt .memberNote peeks_position).mirrors

lemma mirrors_constantsOf (h h' : OpenClass) {visibility : Visibility} {declared declared' : Option Ty}
    (fuel : Nat) :
    Mirrors w Balanced nothing (constantsOf h visibility declared fuel)
      (constantsOf h' visibility declared' fuel) := by
  induction fuel with
  | zero => exact .spent
  | succ fuel ih =>
      refine (balanced_require rfl).bind_eq fun name => (balanced_require rfl).bind_eq fun _ => ?_
      refine ((mirrors_expr .comma).mono .of_expr).bind fun value value' _ => ?_
      refine (mirrors_positionOf name).bind_eq fun start => ?_
      refine .rest (steady_addMember Extent.statement_ne (.constant _)).rests
        (steady_addMember Extent.statement_ne (.constant _)).rests
        fun _ _ => (balanced_takes rfl).bind_eq fun more => ?_
      split
      · exact ih
      · exact .pure rfl

lemma mirrors_classConstants (h h' : OpenClass) (marks : MemberMarks) :
    Mirrors w Balanced nothing (classConstants h marks) (classConstants h' marks) := by
  refine (balanced_require rfl).bind_eq fun _ => ?_
  refine (mirrors_memberType? marks.note).after fun declared declared' => ?_
  refine mirrors_bound.bind_eq fun fuel => (mirrors_constantsOf h h' fuel).after fun _ _ => ?_
  exact (balanced_require rfl).bind_eq fun _ => .pure rfl

lemma mirrors_propertiesOf (h h' : OpenClass) (marks : MemberMarks) {declared declared' : Option Ty}
    (fuel : Nat) :
    Mirrors w Balanced nothing (propertiesOf h marks declared fuel)
      (propertiesOf h' marks declared' fuel) := by
  induction fuel with
  | zero => exact .spent
  | succ fuel ih =>
      refine (balanced_require rfl).bind_eq fun name => (balanced_takes rfl).bind_eq fun hasValue => ?_
      extract_lets -underBinder added added'
      have hadded : ∀ type type', Mirrors w Balanced nothing (added type) (added' type') := by
        intro type type'
        refine (mirrors_positionOf name).bind_eq fun start => ?_
        extract_lets next next'
        have hnext : ∀ u u', Mirrors w Balanced nothing (next u) (next' u') := by
          intro u u'
          refine (balanced_takes rfl).bind_eq fun more => ?_
          split
          · exact ih
          · exact .pure rfl
        have htype : Rests (typeOrMixed type) := steady_typeOrMixed.rests
        have htype' : Rests (typeOrMixed type') := steady_typeOrMixed.rests
        -- only the reading that declared the class adds the property
        split <;> split
        · refine .rest htype htype' fun _ _ => ?_
          exact .rest (steady_addMember Extent.statement_ne (.property _)).rests
            (steady_addMember Extent.statement_ne (.property _)).rests hnext
        · refine .rest_left htype fun _ => ?_
          exact .rest_left (steady_addMember Extent.statement_ne (.property _)).rests
            fun u => hnext u ()
        · refine .rest_right htype' fun _ => ?_
          exact .rest_right (steady_addMember Extent.statement_ne (.property _)).rests
            fun u => hnext () u
        · exact hnext () ()
      split
      · refine ((mirrors_expr .comma).mono .of_expr).bind fun value value' _ => ?_
        exact .rest steady_declaredType?.rests steady_declaredType?.rests hadded
      · exact hadded _ _

lemma mirrors_classProperties (h h' : OpenClass) (marks : MemberMarks) :
    Mirrors w Balanced nothing (classProperties h marks) (classProperties h' marks) := by
  refine (mirrors_memberType? marks.note).after fun noted noted' => ?_
  refine mirrors_kind.bind_eq fun here => ?_
  extract_lets read read'
  have hread : ∀ declared declared',
      Mirrors w Balanced nothing (read declared) (read' declared') := by
    intro declared declared'
    refine mirrors_bound.bind_eq fun fuel => ?_
    refine (mirrors_propertiesOf h h' marks fuel).after fun _ _ => ?_
    exact (balanced_require rfl).bind_eq fun _ => .pure rfl
  split
  · exact hread _ _
  · refine mirrors_position.bind_eq fun start => ?_
    refine (mirrors_descriptor.mono .of_simple).bind_eq fun text => ?_
    exact .rest (by grind) (by grind) hread

section

variable {h h' : OpenClass} (hid : h.id = h'.id) (hdeclares : known.Declares h.id)
include hid hdeclares

/-- Whether a declared class is an interface is known. -/
lemma mirrors_classDef :
    MirrorsAt P known step (·.isInterface) (classDef h.id) (classDef h'.id) := by
  obtain ⟨decl, hdecl, hdeclared⟩ := hdeclares
  have hrun : ∀ s : State, known.Grows s.env.classes → ∃ decl', classDef h.id s = .ok decl' s ∧
      decl'.isInterface = decl.isInterface := by
    intro s hknown
    obtain ⟨decl', hdecl', hheader⟩ := hknown.header_eq hdecl hdeclared
    have hinterface := congrArg ClassDef.isInterface hheader
    refine ⟨decl', ?_, hinterface⟩
    rw [classDef, bind_of_ok (classes_run s), hdecl']
    rfl
  rw [← hid]
  refine ⟨.of_rests steady_classDef.rests, fun s s' _ _ hknown hknown' hcursor b t' hrun' _ => ?_⟩
  obtain ⟨decl₁, hrun₁, hsame₁⟩ := hrun s hknown
  obtain ⟨decl₂, hrun₂, hsame₂⟩ := hrun s' hknown'
  cases hrun₂.symm.trans hrun'
  exact ⟨decl₁, s, hrun₁, hsame₁.trans hsame₂.symm, hcursor, .refl _, .refl _⟩

variable (hstmt : Walks known Balanced stmt)
include hstmt

lemma mirrors_classMethod (marks : MemberMarks) :
    Mirrors known Balanced nothing (classMethod none h marks) (classMethod (some stmt) h' marks) := by
  refine (mirrors_header marks.note).after fun found found' => ?_
  refine (mirrors_classDef hid hdeclares).bind fun decl decl' hdecl => ?_
  extract_lets -underBinder isAbstract method isAbstract' method'
  have habstract : isAbstract = isAbstract' := congrArg (marks.isAbstract || ·) hdecl
  refine .rest (steady_addMember Extent.statement_ne (.method _)).rests
    (steady_addMember Extent.statement_ne (.method _)).rests fun _ _ => ?_
  refine (balanced_takes rfl).bind_eq fun isShort => ?_
  split
  · exact .pure rfl
  · rw [habstract]
    split
    · exact (Refuses.peek peeks_current fun token =>
        .failAt_bind (.misplaced token.value _) peeks_position).mirrors
    · exact .rest_right steady_className.rests fun name => mirrors_body hstmt _

lemma mirrors_classMember :
    Mirrors known Balanced nothing (classMember none h) (classMember (some stmt) h') := by
  refine mirrors_bound.bind_eq fun fuel => (mirrors_memberMarksFrom fuel _).bind_eq fun marks => ?_
  refine mirrors_kind.bind_eq fun here => ?_
  split
  · exact mirrors_classConstants h h' marks
  · exact mirrors_classMethod hid hdeclares hstmt marks
  iterate 3 exact mirrors_classProperties h h' marks
  exact refuses_reject.mirrors

lemma mirrors_membersFrom (fuel : Nat) :
    Mirrors known Balanced nothing (membersFrom none h fuel) (membersFrom (some stmt) h' fuel) := by
  induction fuel with
  | zero => exact .spent
  | succ fuel ih =>
      refine mirrors_kind.bind_eq fun here => ?_
      split
      · exact .pure rfl
      · exact (mirrors_classMember hid hdeclares hstmt).recover.after fun _ _ => ih

lemma mirrors_classBody :
    Mirrors known Balanced nothing (classBody none h) (classBody (some stmt) h') := by
  have heq : ∀ (reader : Option StmtReader) (h : OpenClass),
      classBody reader h = inBraces (bound >>= membersFrom reader h) := by
    intro reader h
    simp only [classBody, inBraces, bind_assoc]
  rw [heq, heq]
  exact mirrors_inBraces admitsBlocks_balanced
    (mirrors_bound.bind_eq fun fuel => mirrors_membersFrom hid hdeclares hstmt fuel)

end

/-! ### Classes -/

/-- A class is read by the words of its header first, and then by its body. -/
lemma classDeclaration_eq (reader : Option StmtReader) :
    classDeclaration reader = ((note? >>= classWords) >>= openClass) >>= fun h =>
      inClass h.id (classBody reader h) >>= fun _ => pure h := by
  simp only [classDeclaration, classHeader_eq, bind_assoc]

lemma mirrors_classHeader : Mirrors known Balanced id (note? >>= classWords) (note? >>= classWords) :=
  (mirrors_note? admitsHeaders_balanced).bind_eq (mirrors_classWords (absurd trivial))

lemma walks_classDeclaration (hstmt : Walks known Balanced stmt) :
    Walks known Balanced (classDeclaration (some stmt)) := by
  rw [classDeclaration_eq, bind_assoc]
  refine mirrors_classHeader.walks.bind fun words => .restAt fun s hknown => ?_
  obtain ⟨h, t, hrun, hstays, -, hdeclares⟩ := opensNamed_openClass words s
  refine ⟨h, t, hrun, hstays, ?_⟩
  have hbody := mirrors_classBody rfl hdeclares (hstmt.weaken (hknown.trans hstays.grows))
  exact (hbody.walks.inClass h.id).bind fun _ => .pure

/-- Reading a class ahead of its place ends where reading it in its place ends, if the table of the
second reading has grown from the one that the first reading leaves. -/
lemma classDeclaration_echoes {s s' t' : State} {h' : OpenClass}
    (hstmt : ∀ known : ClassTable, Walks known Balanced stmt) (hs' : s'.cursor.IsProper)
    (hcursor : s.cursor = s'.cursor)
    (hgrows : (endState (classDeclaration none s)).env.classes.Grows s'.env.classes)
    (hrun : classDeclaration (some stmt) s' = .ok h' t') (hunbroken : t'.log.IsUnbroken) :
    ∃ h t, classDeclaration none s = .ok h t ∧ Echoes s t t' := by
  rw [classDeclaration_eq, bind_assoc] at hrun hgrows ⊢
  obtain ⟨words, u', hwords', hrest'⟩ := exists_of_bind hrun
  obtain ⟨h₂, v', hopen', hbody'⟩ := exists_of_bind hrest'
  obtain ⟨_, _, hopened, hstays', hid', hdeclares'⟩ := opensNamed_openClass words u'
  cases hopened.symm.trans hopen'
  have hheader : Mirrors (⟨[]⟩ : ClassTable) Balanced id (note? >>= classWords)
      (note? >>= classWords) := mirrors_classHeader
  obtain ⟨hextends, -⟩ := hheader.walks s' trivial hs' (.empty _)
  rw [hwords'] at hextends
  have hv' := (hstays'.extends hextends.proper).proper
  have hbodyWalks : Walks v'.env.classes Balanced
      (inClass h₂.id (classBody (some stmt) h₂) >>= fun _ => pure h₂) :=
    ((mirrors_classBody rfl hdeclares' (hstmt _)).walks.inClass h₂.id).bind fun _ => .pure
  obtain ⟨hextends', -⟩ := hbodyWalks v' trivial hv' (.refl _)
  rw [hbody'] at hextends'
  -- the words are the same, so that both readings open the class of one name
  obtain ⟨words₁, u, hwords, hsame, hechoes⟩ := hheader.echo s s' trivial hs' (.empty _) (.empty _)
    hcursor words u' hwords' fun _ => hunbroken.of_isPrefix (hstays'.log.trans hextends'.log)
  obtain rfl : words₁ = words := hsame
  obtain ⟨h₁, v, hopen, hstays, hid, hdeclares⟩ := opensNamed_openClass words₁ u
  rw [bind_of_ok hwords, bind_of_ok hopen] at hgrows ⊢
  have hv : v.cursor.IsProper := by
    rw [hstays.cursor, hechoes.cursor]
    exact hextends.proper
  have hcursor' : v.cursor = v'.cursor := by
    rw [hstays.cursor, hstays'.cursor, hechoes.cursor]
  have hgrown : v.env.classes.Grows v'.env.classes := by
    refine (grows_of_agree hv ?_).trans (hgrows.trans (hextends.grows.trans hstays'.grows))
    exact ((agree_classBody (by simp) fun _ => trivial).inClass _).bind_eq fun _ => .pure rfl
  have hids : h₁.id = h₂.id := Option.some.inj ((hgrown.idOf?_eq hid).symm.trans hid')
  have hbody : Mirrors v.env.classes Balanced nothing
      (inClass h₁.id (classBody none h₁) >>= fun _ => pure h₁)
      (inClass h₂.id (classBody (some stmt) h₂) >>= fun _ => pure h₂) := by
    rw [hids]
    exact ((mirrors_classBody hids hdeclares (hstmt _)).inClass h₂.id).after fun _ _ => .pure rfl
  obtain ⟨h, t, hrun₁, -, hechoes'⟩ := hbody.echo v v' trivial hv' (.refl _) hgrown hcursor' h' t'
    hbody' fun _ => hunbroken
  exact ⟨h, t, hrun₁, hechoes'.cursor, hechoes.grows.trans (hstays.grows.trans hechoes'.grows),
    hechoes.quiet.trans (hstays.quiet.trans hechoes'.quiet)⟩

end Check

end ScriptCheck
