import ScriptCheck.Proofs.Coherence.Expr

/-!
Statements keep states coherent.

The declarations inside a statement may enter classes, so what was found out before a part is read
is carried over to the larger table after it (`NatSet.Within.mono`). What matters of the exits of a
statement are the classes it may raise (`Exits.Within`). The readers of compound constructs are
shown to keep states coherent on the assumption that the reader of statements does.
-/

namespace ScriptCheck

/-- The classes that a statement may raise are among the first so many. -/
def Exits.Within (n : Nat) (exits : Exits) : Prop :=
  exits.raises.Within n

variable {n k : Nat}

lemma Facts.Within.mono {facts : Facts} (h : facts.Within n) (hn : n ≤ k) : facts.Within k :=
  ⟨h.type.mono hn, h.raises.mono hn⟩

namespace Exits.Within

variable {a b : Exits}

lemma mono (h : a.Within n) (hn : n ≤ k) : a.Within k :=
  NatSet.Within.mono h hn

lemma passing : Exits.passing.Within n := NatSet.Within.empty

lemma stopping : Exits.stopping.Within n := NatSet.Within.empty

lemma alsoRaising (h : a.Within n) {classes : NatSet} (hclasses : classes.Within n) :
    (a.alsoRaising classes).Within n :=
  NatSet.Within.union h hclasses

lemma orStops (h : a.Within n) : a.orStops.Within n := by
  rw [Exits.orStops]
  split
  · exact h
  · exact h

lemma join (ha : a.Within n) (hb : b.Within n) : (a.join b).Within n :=
  NatSet.Within.union ha hb

lemma andThen (ha : a.Within n) (hb : b.Within n) : (a.andThen b).Within n := by
  rw [Exits.andThen]
  split
  · exact NatSet.Within.union ha hb
  · exact ha

lemma foldl_join {l : List Exits} (ha : a.Within n) (h : ∀ e ∈ l, e.Within n) :
    (l.foldl Exits.join a).Within n := by
  induction l generalizing a with
  | nil => exact ha
  | cons e l ih =>
      obtain ⟨he, hl⟩ := List.forall_mem_cons.mp h
      exact ih (ha.join he) hl

lemma oneOf {l : List Exits} (h : ∀ e ∈ l, e.Within n) : (Exits.oneOf l).Within n :=
  orStops (foldl_join NatSet.Within.empty h)

lemma loop (h : a.Within n) (condition : Option Bool) : (a.loop condition).Within n :=
  orStops h

lemma doWhile (h : a.Within n) (condition : Option Bool) : (a.doWhile condition).Within n :=
  orStops h

lemma switchGroups {groups : List Exits} (h : ∀ e ∈ groups, e.Within n) :
    (Exits.switchGroups groups).Within n := by
  fun_induction Exits.switchGroups groups with
  | case1 => exact NatSet.Within.empty
  | case2 group => exact h group List.mem_cons_self
  | case3 group groups _ ih =>
      obtain ⟨hgroup, hgroups⟩ := List.forall_mem_cons.mp h
      exact join hgroup (ih hgroups)

lemma switch {groups : List Exits} (h : ∀ e ∈ groups, e.Within n) (hasDefault : Bool) :
    (Exits.switch groups hasDefault).Within n :=
  orStops (join NatSet.Within.empty (switchGroups h))

lemma guarded (t : ClassTable) {clauses : List Handler} {finalBlock : Option Exits}
    (ha : a.Within n) (hclauses : ∀ clause ∈ clauses, clause.body.Within n)
    (hlast : ∀ last ∈ finalBlock, last.Within n) :
    (Exits.guarded t a clauses finalBlock).Within n := by
  have hkept : ({ a with raises := uncaught t a.raises (clauses.flatMap (·.types)) } :
      Exits).Within n := NatSet.Within.filter _ ha
  have hresult := foldl_join hkept (List.forall_mem_map.mpr hclauses)
  rw [List.foldl_map] at hresult
  cases finalBlock with
  | none => exact orStops hresult
  | some last =>
      have hlast := hlast last rfl
      rw [Exits.guarded]
      split
      · exact orStops (join hresult hlast)
      · exact hlast

end Exits.Within

namespace Check

/-! ### Sequences and expressions -/

@[grind ←]
lemma spares_declarationAhead : Spares declarationAhead := by
  rw [declarationAhead]
  grind

@[grind ←]
lemma spares_reportUnreachable {p : Position} : Spares (reportUnreachable p) := by
  rw [reportUnreachable]
  grind

lemma keepsAt_condition : KeepsAt n (Facts.Within n) condition := by
  refine .require fun _ => keepsAt_expr.bind fun facts hfacts => ?_
  exact .require fun _ => .pure ⟨rfl, hfacts⟩

lemma keepsAt_exprsFrom (close : Kind) (depth : Nat) :
    KeepsAt n (fun found => ∀ facts ∈ found, facts.Within n) (exprsFrom close depth) := by
  induction depth with
  | zero => exact keeps_spent
  | succ depth ih =>
      refine .onKind fun here => ?_
      split
      case isTrue => exact .pure ⟨rfl, List.forall_mem_nil _⟩
      case isFalse =>
        refine keepsAt_expr.bind fun facts hfacts => .takes fun hasMore => ?_
        split
        case isTrue =>
          exact ih.bind fun rest hrest => .pure ⟨rfl, List.forall_mem_cons.mpr ⟨hfacts, hrest⟩⟩
        case isFalse => exact .pure ⟨rfl, List.forall_mem_singleton.mpr hfacts⟩

lemma keepsAt_exprs {close : Kind} :
    KeepsAt n (fun found => ∀ facts ∈ found, facts.Within n) (exprs close) := by
  refine .bound fun depth => ?_
  refine (keepsAt_exprsFrom close depth).bind fun found hfound => ?_
  exact .require fun _ => .pure ⟨rfl, hfound⟩

lemma keepsAt_exprStatement : KeepsAt n (Exits.Within n) exprStatement := by
  refine keepsAt_expr.bind fun facts hfacts => ?_
  exact .require fun _ => .pure ⟨rfl, .alsoRaising .passing hfacts.raises⟩

lemma keepsAt_echo : KeepsAt n (Exits.Within n) echo := by
  refine .require fun _ => keepsAt_exprs.bind fun shown hshown => ?_
  exact .pure ⟨rfl, .alsoRaising .passing (within_allRaises hshown)⟩

lemma keepsAt_emptyStatement : KeepsAt n (Exits.Within n) emptyStatement :=
  .require fun _ => .pure ⟨rfl, .passing⟩

/-! ### Jumps -/

@[grind ←]
lemma spares_jumpLevel {keyword : String} : Spares (jumpLevel keyword) := by
  rw [jumpLevel]
  grind

lemma keepsAt_jump {exits : Nat → Exits} (hexits : ∀ level, (exits level).Within n) :
    KeepsAt n (Exits.Within n) (jump exits) := by
  refine .advance fun keyword => .after spares_jumpLevel fun level => ?_
  refine .require fun _ => .peek peeks_get fun s => ?_
  dsimp only
  split
  · refine .peek peeks_positionOf fun p => .after spares_report fun _ => ?_
    exact .pure ⟨rfl, hexits _⟩
  · exact .pure ⟨rfl, hexits _⟩

@[grind ←]
lemma spares_checkReturn (value : Option Facts) (p : Position) : Spares (checkReturn value p) := by
  rw [checkReturn]
  grind

lemma keepsAt_returnedValue? :
    KeepsAt n (fun value => ∀ facts ∈ value, facts.Within n) returnedValue? := by
  refine .onKind fun here => ?_
  split
  · exact .pure ⟨rfl, by rintro _ ⟨⟩⟩
  · exact keepsAt_expr.bind fun facts hfacts => .pure ⟨rfl, by rintro _ ⟨⟩; exact hfacts⟩

lemma keepsAt_returnStatement : KeepsAt n (Exits.Within n) returnStatement := by
  refine .require fun keyword => keepsAt_returnedValue?.bind fun value hvalue => ?_
  refine .require fun _ => .peek peeks_positionOf fun p => ?_
  refine .after (spares_checkReturn value p) fun _ => .pure ⟨rfl, .alsoRaising .stopping ?_⟩
  exact within_allRaises fun facts hfacts => hvalue facts (Option.mem_toList.mp hfacts)

lemma keepsAt_raisedClass? {exception : Facts} (hexception : exception.Within n) :
    KeepsAt n (fun raised => ∀ id ∈ raised, id < n) (raisedClass? exception) := by
  have hnone : KeepsAt n (fun raised => ∀ id ∈ raised, id < n) (pure (none : Option ClassId)) :=
    .pure ⟨rfl, by rintro _ ⟨⟩⟩
  rw [raisedClass?]
  cases htype : exception.type with
  | mixed => exact hnone
  | object => exact hnone
  | ofClass id name =>
      have hid : (Ty.ofClass id name).Within n := htype ▸ hexception.type
      have hsome : KeepsAt n (fun raised => ∀ id ∈ raised, id < n) (pure (some id)) :=
        .pure ⟨rfl, by rintro _ ⟨⟩; exact hid⟩
      exact .peek peeks_classes fun t => .ite hsome (.after spares_report fun _ => hnone)
  | _ => exact .after spares_report fun _ => hnone

lemma keepsAt_throwStatement : KeepsAt n (Exits.Within n) throwStatement := by
  refine .require fun _ => keepsAt_expr.bind fun exception hexception => ?_
  refine .require fun _ => ?_
  refine (keepsAt_raisedClass? hexception).bind fun raised hraised => ?_
  have hclass : (NatSet.ofList raised.toList).Within n :=
    .ofList fun id hid => hraised id (Option.mem_toList.mp hid)
  exact .pure ⟨rfl, .alsoRaising .stopping (hexception.raises.union hclass)⟩

lemma keepsAt_exitStatement : KeepsAt n (Exits.Within n) exitStatement := by
  refine .require fun _ => .takes fun hasArgs => ?_
  refine KeepsAt.either keepsAt_exprs (.pure ⟨rfl, List.forall_mem_nil _⟩) fun args hargs => ?_
  exact .require fun _ =>
    .pure ⟨rfl, .alsoRaising .stopping (within_allRaises hargs)⟩

/-! ### Constants and variables -/

lemma keepsAt_constantsFrom (depth : Nat) : KeepsAt n (NatSet.Within n) (constantsFrom depth) := by
  induction depth with
  | zero => exact keeps_spent
  | succ depth ih =>
      refine .require fun name => .require fun _ => ?_
      refine keepsAt_expr.bind fun value hvalue => ?_
      refine (keepsAt_modifyEnv fun env henv hsize => ?_).bind fun _ _ => ?_
      · rw [Env.classes_addConstant]
        exact ⟨henv.addConstant _ (hsize ▸ hvalue.type), hsize⟩
      · refine .takes fun hasMore => ?_
        split
        · exact ih.bind fun raises hraises => .pure ⟨rfl, hvalue.raises.union hraises⟩
        · exact .pure ⟨rfl, hvalue.raises⟩

lemma keepsAt_constStatement : KeepsAt n (Exits.Within n) constStatement := by
  refine .require fun _ => .bound fun depth => ?_
  refine (keepsAt_constantsFrom depth).bind fun raises hraises => ?_
  exact .require fun _ => .pure ⟨rfl, .alsoRaising .passing hraises⟩

lemma keepsAt_variablesFrom {type : Ty} (htype : type.Within n) (depth : Nat) :
    KeepsAt n (NatSet.Within n) (variablesFrom type depth) := by
  induction depth with
  | zero => exact keeps_spent
  | succ depth ih =>
      refine .require fun name => ?_
      refine (keepsAt_setVariable _ htype true).bind fun _ _ => ?_
      refine .takes fun isSet => ?_
      have hlast : ∀ raises : NatSet, raises.Within n → KeepsAt n (NatSet.Within n) (do
          if ← takes .comma then
            let rest ← variablesFrom type depth
            return raises ∪ rest
          else return raises) := by
        intro raises hraises
        refine .takes fun hasMore => ?_
        split
        · exact ih.bind fun rest hrest => .pure ⟨rfl, hraises.union hrest⟩
        · exact .pure ⟨rfl, hraises⟩
      dsimp only
      split
      · refine keepsAt_expr.bind fun value hvalue => .after spares_checkType fun _ => ?_
        exact hlast _ hvalue.raises
      · exact hlast _ .empty

@[grind ←]
lemma spares_descriptorTags {depth : Nat} (text : List Char) :
    Spares (descriptorTags depth text) := by
  induction depth generalizing text with
  | zero => exact spares_throw
  | succ depth ih =>
      rw [descriptorTags]
      grind

@[grind ←]
lemma spares_descriptorWithin (depth : Nat) : Spares (descriptorWithin depth) := by
  induction depth with
  | zero => exact spares_throw
  | succ depth ih =>
      refine peeks_current.spares.bind fun base => ?_
      have hlast : Spares (do
          let _ ← advance
          let text ← descriptorTags (← bound) base.value.toList
          if base.kind == .kwArray && text.length > "array".length && startsType (← kind) then
            let element ← descriptorWithin depth
            return text ++ element
          else return text) := by
        refine spares_advance.bind fun _ => peeks_bound.spares.bind fun bound => ?_
        refine (spares_descriptorTags _).bind fun text => peeks_kind.spares.bind fun next => ?_
        split
        · exact ih.bind fun element => .pure
        · exact .pure
      dsimp only
      split
      · exact hlast
      · exact peeks_positionOf.spares.bind fun p => spares_fail.bind fun _ => hlast

@[grind ←]
lemma spares_descriptor : Spares descriptor := by
  rw [descriptor]
  grind

@[grind ←]
lemma spares_nameList (depth : Nat) : Spares (nameList depth) := by
  induction depth with
  | zero => exact spares_throw
  | succ depth ih =>
      rw [nameList]
      grind

@[grind ←]
lemma spares_names : Spares names := by
  rw [names]
  grind

@[grind ←]
lemma spares_noteContent : Spares noteContent := by
  rw [noteContent]
  grind

@[grind ←]
lemma spares_note : Spares note := by
  rw [note]
  grind

lemma keepsAt_variableStatement : KeepsAt n (Exits.Within n) variableStatement := by
  refine .after spares_note fun read => ?_
  cases read with
  | type descriptor start =>
      refine (keepsAt_noteType descriptor start).bind fun type htype => ?_
      refine .bound fun depth => ?_
      refine (keepsAt_variablesFrom htype depth).bind fun raises hraises => ?_
      exact .require fun _ => .pure ⟨rfl, .alsoRaising .passing hraises⟩
  | _ => exact .peek peeks_position fun p => keeps_fail

/-! ### Compound statements -/

lemma keepsAt_loopExits {body : Exits} (hbody : body.Within n) {truth : Option Bool}
    {start : Position} : KeepsAt n (Exits.Within n) (loopExits body truth start) := by
  rw [loopExits]
  split
  · exact .after spares_reportUnreachable fun _ => .pure ⟨rfl, .passing⟩
  · exact .pure ⟨rfl, hbody.loop truth⟩

lemma keepsAt_iterationTypes {subject : Ty} (hsubject : subject.Within n) :
    KeepsAt n (fun types => types.1.Within n ∧ types.2.Within n) (iterationTypes subject) := by
  cases subject with
  | container key element =>
      have helement : element.Within n := hsubject
      exact keepsAt_typeOf.bind fun keyType hkey => .pure ⟨rfl, hkey, helement⟩
  | _ =>
      exact keepsAt_mixed.bind fun keyType hkey =>
        keepsAt_mixed.bind fun element helement => .pure ⟨rfl, hkey, helement⟩

lemma keepsAt_setLoopVariable {name : String} {type : Ty} (htype : type.Within n) :
    KeepsAt n (fun _ => True) (setLoopVariable name type) := by
  refine (keepsAt_variableNamed? name).bind fun found _ => ?_
  split
  · exact keepsAt_setVariable name htype false
  · exact .pure ⟨rfl, trivial⟩

lemma keepsAt_loopVariables {keyType elementType : Ty} (hkey : keyType.Within n)
    (helement : elementType.Within n) :
    KeepsAt n (fun _ => True) (loopVariables keyType elementType) := by
  refine .takes fun _ => .require fun first => ?_
  refine .takes fun hasKey => ?_
  split
  · refine .takes fun _ => .require fun second => ?_
    exact (keepsAt_setLoopVariable hkey).bind fun _ _ => keepsAt_setLoopVariable helement
  · exact keepsAt_setLoopVariable helement

/-- The classes that the branches or their conditions may raise are among the first so many. -/
structure Branches.Within (n : Nat) (b : Branches) : Prop where
  taken : ∀ e ∈ b.taken, e.Within n
  raises : b.raises.Within n

lemma Branches.Within.add {b : Branches} (h : b.Within n) {condition : Facts}
    (hcondition : condition.Within n) {body : Exits} (hbody : body.Within n) :
    (b.add condition body).Within n := by
  have hraises := h.raises.union hcondition.raises
  rw [Branches.add]
  split
  · exact ⟨h.taken, hraises⟩
  · exact ⟨forall_mem_concat h.taken hbody, hraises⟩

lemma Branches.Within.addLast {b : Branches} (h : b.Within n) {body : Exits}
    (hbody : body.Within n) : (b.addLast body).Within n := by
  rw [Branches.addLast]
  split
  · exact h
  · exact ⟨forall_mem_concat h.taken hbody, h.raises⟩

lemma Branches.Within.mono {b : Branches} (h : b.Within n) (hn : n ≤ k) : b.Within k :=
  ⟨fun e he => (h.taken e he).mono hn, h.raises.mono hn⟩

/-- The classes that the groups or their labels may raise are among the first so many. -/
structure Groups.Within (n : Nat) (g : Groups) : Prop where
  bodies : ∀ e ∈ g.bodies, e.Within n
  raises : g.raises.Within n

lemma Groups.Within.mono {g : Groups} (h : g.Within n) (hn : n ≤ k) : g.Within k :=
  ⟨fun e he => (h.bodies e he).mono hn, h.raises.mono hn⟩

lemma keepsAt_label {found : Groups} (hfound : found.Within n) :
    KeepsAt n (Groups.Within n) (label found) := by
  refine .onKind fun here => ?_
  split
  · refine .advance fun _ => keepsAt_expr.bind fun facts hfacts => ?_
    exact .pure ⟨rfl, hfound.bodies, hfound.raises.union hfacts.raises⟩
  · exact .advance fun _ => .pure ⟨rfl, hfound.bodies, hfound.raises⟩
  · exact keeps_reject

@[grind ←]
lemma spares_caughtTypes {depth : Nat} (found : CaughtTypes) :
    Spares (caughtTypes depth found) := by
  induction depth generalizing found with
  | zero => exact spares_throw
  | succ depth ih =>
      rw [caughtTypes]
      grind

lemma keepsAt_caughtType (types : CaughtTypes) : KeepsAt n (Ty.Within n) (caughtType types) := by
  rw [caughtType]
  split
  · split
    · exact keepsAt_instanceType _
    · exact keepsAt_mixed
  · exact keepsAt_mixed

section Parts

variable {stmt : StmtReader} (hstmt : ∀ n, Keeps n Exits.Within stmt)
include hstmt

lemma keeps_statementsFrom (ends : List Kind) (depth : Nat) {exits : Exits}
    (hexits : exits.Within n) (reported : Bool) :
    Keeps n Exits.Within (statementsFrom stmt ends depth exits reported) := by
  induction depth generalizing n exits reported with
  | zero => exact keeps_spent
  | succ depth ih =>
      refine .onKind fun here => ?_
      split
      case isTrue => exact .pure hexits
      case isFalse =>
        refine .peek peeks_position fun start => ?_
        refine .after spares_declarationAhead fun isDeclaration => ?_
        refine (hstmt n).bind fun k next hk hnext => ?_
        have hexits := hexits.mono hk
        split
        case isTrue => exact ih (hexits.andThen hnext) reported
        case isFalse =>
          split
          case isTrue => exact ih hexits reported
          case isFalse => exact .after spares_reportUnreachable fun _ => ih hexits true

lemma keeps_statements (ends : List Kind) : Keeps n Exits.Within (statements stmt ends) :=
  .bound fun depth => keeps_statementsFrom hstmt ends depth .passing false

lemma keeps_block : Keeps n Exits.Within (block stmt) := by
  refine .require fun _ => ?_
  refine (keeps_statements hstmt _).bind fun k exits _ hexits => ?_
  exact .require fun _ => .pure hexits

lemma keeps_branchesFrom (depth : Nat) {found : Branches} (hfound : found.Within n) :
    Keeps n Branches.Within (branchesFrom stmt depth found) := by
  induction depth generalizing n found with
  | zero => exact keeps_spent
  | succ depth ih =>
      refine keepsAt_condition.bind fun facts hfacts => (hstmt n).bind fun k body hk hbody => ?_
      have hfound := (hfound.mono hk).add (hfacts.mono hk) hbody
      refine .takes fun hasMore => ?_
      split
      · exact ih hfound
      · exact .pure hfound

lemma keeps_ifStatement : Keeps n Exits.Within (ifStatement stmt) := by
  refine .require fun _ => .bound fun depth => ?_
  have hempty : Branches.Within n {} := ⟨List.forall_mem_nil _, .empty⟩
  refine (keeps_branchesFrom hstmt depth hempty).bind fun k found _ hfound => ?_
  refine .takes fun hasLast => ?_
  refine .either (hstmt k) (.pure .passing) fun l last hl hlast => ?_
  have hall := (hfound.mono hl).addLast hlast
  exact .pure (.alsoRaising (.oneOf hall.taken) hall.raises)

lemma keeps_whileStatement : Keeps n Exits.Within (whileStatement stmt) := by
  refine .require fun _ => keepsAt_condition.bind fun facts hfacts => ?_
  refine .peek peeks_position fun start => ?_
  refine ((hstmt n).inLoop).bind fun k body hk hbody => ?_
  refine (keepsAt_loopExits hbody).bind fun exits hexits => ?_
  exact .pure (.alsoRaising hexits (hfacts.raises.mono hk))

lemma keeps_doStatement : Keeps n Exits.Within (doStatement stmt) := by
  refine .require fun _ => ((hstmt n).inLoop).bind fun k body hk hbody => ?_
  refine .require fun _ => keepsAt_condition.bind fun facts hfacts => ?_
  exact .require fun _ => .pure (.alsoRaising (hbody.doWhile _) hfacts.raises)

lemma keeps_forStatement : Keeps n Exits.Within (forStatement stmt) := by
  refine .require fun _ => .require fun _ => ?_
  refine keepsAt_exprs.bind fun first hfirst => ?_
  refine keepsAt_exprs.bind fun conditions hconditions => ?_
  refine keepsAt_exprs.bind fun steps hsteps => .peek peeks_position fun start => ?_
  have hcounted : ∀ isSkipped : Bool,
      (if isSkipped then ∅ else allRaises steps : NatSet).Within n := by
    rintro ⟨⟩
    · exact within_allRaises hsteps
    · exact .empty
  refine ((hstmt n).inLoop).bind fun k body hk hbody => ?_
  refine (keepsAt_loopExits hbody).bind fun exits hexits => .pure (.alsoRaising hexits ?_)
  exact NatSet.Within.mono (.union (within_allRaises hfirst)
    (.union (within_allRaises hconditions) (hcounted _))) hk

lemma keeps_foreachStatement : Keeps n Exits.Within (foreachStatement stmt) := by
  refine .require fun _ => .require fun _ => ?_
  refine keepsAt_expr.bind fun subject hsubject => .require fun _ => ?_
  refine (keepsAt_iterationTypes hsubject.type).bind fun types htypes => ?_
  refine (keepsAt_loopVariables htypes.1 htypes.2).bind fun _ _ => ?_
  refine .require fun _ => ((hstmt n).inLoop).bind fun k body hk hbody => ?_
  exact .pure (.alsoRaising (hbody.loop none) (hsubject.raises.mono hk))

lemma keeps_groupsFrom (depth : Nat) {found : Groups} (hfound : found.Within n) :
    Keeps n Groups.Within (groupsFrom stmt depth found) := by
  induction depth generalizing n found with
  | zero => exact keeps_spent
  | succ depth ih =>
      refine .onKind fun here => ?_
      split
      case isTrue => exact .pure hfound
      case isFalse =>
        refine (keepsAt_label hfound).bind fun found hfound => ?_
        refine .takes fun isEnd => ?_
        have hlast : Keeps n Groups.Within (do
            let exits ← statements stmt [.kwCase, .kwDefault, .closeCurly]
            groupsFrom stmt depth { found with bodies := found.bodies ++ [exits] }) := by
          refine (keeps_statements hstmt _).bind fun k exits hk hexits => ih ⟨?_, ?_⟩
          · exact forall_mem_concat (hfound.mono hk).bodies hexits
          · exact hfound.raises.mono hk
        dsimp only
        split
        · exact hlast
        · exact .require fun _ => hlast

lemma keeps_switchStatement : Keeps n Exits.Within (switchStatement stmt) := by
  refine .require fun _ => keepsAt_condition.bind fun subject hsubject => ?_
  have hempty : Groups.Within n {} := ⟨List.forall_mem_nil _, .empty⟩
  have hgroups : Keeps n Groups.Within (do groupsFrom stmt (← bound) {}) :=
    .bound fun depth => keeps_groupsFrom hstmt depth hempty
  refine .require fun _ => hgroups.inLoop.bind fun k found hk hfound => ?_
  refine .require fun _ => .pure (.alsoRaising (.switch hfound.bodies _) ?_)
  exact (hsubject.raises.mono hk).union hfound.raises

lemma keeps_catchClause : Keeps n (fun k clause => clause.body.Within k) (catchClause stmt) := by
  refine .require fun _ => .require fun _ => ?_
  refine .bound fun depth => .after (spares_caughtTypes _) fun types => ?_
  refine .require fun name => .require fun _ => ?_
  refine (keepsAt_caughtType types).bind fun type htype => ?_
  refine (keepsAt_setVariable _ htype false).bind fun _ _ => ?_
  exact (keeps_block hstmt).bind fun k body _ hbody => .pure hbody

lemma keeps_catchClauses (depth : Nat) :
    Keeps n (fun k clauses => ∀ clause ∈ clauses, clause.body.Within k)
      (catchClauses stmt depth) := by
  induction depth generalizing n with
  | zero => exact keeps_spent
  | succ depth ih =>
      refine .onKind fun here => ?_
      split
      case isTrue =>
        refine (keeps_catchClause hstmt).bind fun k clause _ hclause => ?_
        refine ih.bind fun l rest hl hrest => .pure ?_
        exact List.forall_mem_cons.mpr ⟨hclause.mono hl, hrest⟩
      case isFalse => exact .pure (List.forall_mem_nil _)

lemma keeps_finalBlock? :
    Keeps n (fun k last => ∀ exits ∈ last, exits.Within k) (finalBlock? stmt) := by
  refine .takes fun hasLast => ?_
  split
  · exact (keeps_block hstmt).bind fun k exits _ hexits =>
      .pure (by rintro _ ⟨⟩; exact hexits)
  · exact .pure (by rintro _ ⟨⟩)

lemma keeps_tryStatement : Keeps n Exits.Within (tryStatement stmt) := by
  refine .require fun keyword => (keeps_block hstmt).bind fun k body _ hbody => ?_
  refine .bound fun depth => ?_
  refine (keeps_catchClauses hstmt depth).bind fun l clauses hl hclauses => ?_
  refine (keeps_finalBlock? hstmt).bind fun i last hi hlast => ?_
  have hresult : ∀ t, (Exits.guarded t body clauses last).Within i := fun t =>
    .guarded t (hbody.mono (hl.trans hi)) (fun clause hclause => (hclauses clause hclause).mono hi)
      hlast
  split
  · exact .peek peeks_positionOf fun p => .after spares_fail fun _ =>
      .peek peeks_classes fun t => .pure (hresult t)
  · exact .peek peeks_classes fun t => .pure (hresult t)

end Parts

end Check

end ScriptCheck
