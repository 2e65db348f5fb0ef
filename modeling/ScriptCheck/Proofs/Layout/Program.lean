import ScriptCheck.Proofs.Analysis.Termination
import ScriptCheck.Proofs.Layout.Decl

/-!
A whole file at other places.

The reader of statements is put together from the readers of its parts. Before the statements are
read, every class that the file names is entered. The name of a class stands after another token, so
it is never the first token of the file.
-/

namespace ScriptCheck

open Relocation.Law

variable {r : Relocation} {K : r.Law} {least : Nat}

namespace Check

/-! ### Statements -/

lemma agree_annotatedStatement {stmt : StmtReader} (hstmt : K.AgreeStmt stmt) :
    K.Alike least Eq (annotatedStatement stmt) := by
  refine .look fun s _ => ?_
  simp only [Relocation.state, r.kindAfterNote_cursor]
  refine .ite (fun _ => agree_functionStatement hstmt) fun _ => ?_
  exact .ite (fun _ => agree_classStatement hstmt) fun _ => agree_variableStatement

lemma agree_byKind {stmt : StmtReader} (hstmt : K.AgreeStmt stmt) :
    K.Alike least Eq (byKind stmt) := by
  refine .onKind fun here => ?_
  split
  · exact agree_block hstmt
  · exact agree_ifStatement hstmt
  · exact agree_whileStatement hstmt
  · exact agree_doStatement hstmt
  · exact agree_forStatement hstmt
  · exact agree_foreachStatement hstmt
  · exact agree_switchStatement hstmt
  · exact agree_jump
  · exact agree_jump
  · exact agree_returnStatement
  · exact agree_throwStatement
  · exact agree_exitStatement
  · exact agree_tryStatement hstmt
  · exact agree_echo
  · exact agree_emptyStatement
  · exact agree_functionStatement hstmt
  · exact agree_classStatement hstmt
  · exact agree_classStatement hstmt
  · exact agree_classStatement hstmt
  · exact agree_classStatement hstmt
  · exact agree_constStatement
  · exact agree_annotatedStatement hstmt
  · exact .ite (fun _ => agree_exprStatement) fun _ => agree_reject

lemma agree_stmtWithin (depth : Nat) : K.AgreeStmt (stmtWithin depth) := by
  induction depth with
  | zero => exact fun _ => agree_spent
  | succ depth ih => exact fun _ => (agree_byKind ih).recover rfl

lemma agree_stmt : K.AgreeStmt stmt :=
  fun _ => .bound fun depth => agree_stmtWithin depth _

/-! ### Names of classes -/

lemma namedClasses_map (previous : Kind) (tokens : List Token) :
    namedClasses r.file previous (tokens.map r.token) =
      (namedClasses r.file previous tokens).map (.relocate r.position) := by
  induction tokens generalizing previous with
  | nil => rfl
  | cons token rest ih =>
      cases rest with
      | nil => rfl
      | cons next rest =>
          have hstub (isInterface : Bool) : ClassDef.stub (r.token next).value isInterface
              ⟨(r.token next).start, r.file⟩ =
                .relocate r.position (.stub next.value isInterface ⟨next.start, r.file⟩) := by
            show _ = ClassDef.stub next.value isInterface (r.position ⟨next.start, r.file⟩)
            rw [r.position_here]
            rfl
          have hlater := ih token.kind
          rw [List.map_cons] at hlater ⊢
          rw [List.map_cons, namedClasses, namedClasses]
          simp only [r.token_kind, hlater, hstub]
          split
          · rw [apply_ite (List.map _), List.map_cons]
          · rw [apply_ite (List.map _), List.map_cons]
          · rfl

/-- A class is named by a name after another token. -/
lemma exists_of_mem_namedClasses {file : String} {previous : Kind} {tokens : List Token}
    {decl : ClassDef} (h : decl ∈ namedClasses file previous tokens) :
    ∃ i token isInterface, tokens[i + 1]? = some token ∧ token.kind = .name ∧
      decl = .stub token.value isInterface ⟨token.start, file⟩ := by
  induction tokens generalizing previous with
  | nil => simp [namedClasses] at h
  | cons token rest ih =>
      have hlater (h : decl ∈ namedClasses file token.kind rest) :
          ∃ i next isInterface, (token :: rest)[i + 1]? = some next ∧ next.kind = .name ∧
            decl = .stub next.value isInterface ⟨next.start, file⟩ := by
        obtain ⟨i, next, isInterface, hnext, hkind, hdecl⟩ := ih h
        exact ⟨i + 1, next, isInterface, hnext, hkind, hdecl⟩
      cases rest with
      | nil => simp [namedClasses] at h
      | cons next rest =>
          have hkind (h : (previous != .doubleColon && next.kind == .name) = true) :
              next.kind = .name := beq_iff_eq.mp (Bool.and_eq_true_iff.mp h).2
          rw [namedClasses] at h
          split at h
          · split_ifs at h with hnamed
            · obtain rfl | h := List.mem_cons.mp h
              · exact ⟨0, next, false, rfl, hkind hnamed, rfl⟩
              · exact hlater h
            · exact hlater h
          · split_ifs at h with hnamed
            · obtain rfl | h := List.mem_cons.mp h
              · exact ⟨0, next, true, rfl, hkind hnamed, rfl⟩
              · exact hlater h
            · exact hlater h
          · exact hlater h

/-- Entering classes that are named by inner tokens. -/
lemma holds_enter {log : Log} {types : TypeCache} {defs : List ClassDef}
    (hdefs : ∀ decl ∈ defs, ∃ name isInterface p, decl = .stub name isInterface p ∧
      IsInnerName r.file r.tokens name p) (env : Env) (henv : K.Holds log types env) :
    K.Holds log types (defs.foldl (fun env decl => (env.addClass decl).2) env) ∧
      (defs.map (.relocate r.position)).foldl (fun env decl => (env.addClass decl).2) (r.env env) =
        r.env (defs.foldl (fun env decl => (env.addClass decl).2) env) := by
  induction defs generalizing env with
  | nil => exact ⟨henv, rfl⟩
  | cons decl defs ih =>
      obtain ⟨name, isInterface, p, rfl, hname⟩ := hdefs decl (by simp)
      have hadd := r.addClass_env env (.stub name isInterface p)
      rw [← stub_relocate _ _ hname.isInnerPlace] at hadd
      have hstub : (ClassDef.stub name isInterface p).relocate r.position =
          .stub name isInterface (r.position p) := rfl
      simp only [List.map_cons, List.foldl_cons, hstub, hadd]
      exact ih (fun d hd => hdefs d (List.mem_cons_of_mem _ hd)) _ (K.addClass _ henv hname)

lemma agree_enterClasses : K.Alike least Eq enterClasses := by
  intro s hs
  have hdefs : ∀ decl ∈ namedClasses r.file .eof r.tokens.toList,
      ∃ name isInterface p, decl = .stub name isInterface p ∧
        IsInnerName r.file r.tokens name p := by
    intro decl hdecl
    obtain ⟨i, token, isInterface, htoken, hkind, rfl⟩ := exists_of_mem_namedClasses hdecl
    exact ⟨_, _, _, rfl, i + 1, token, Nat.succ_pos i, by simpa using htoken, hkind, rfl, rfl⟩
  obtain ⟨hholds, henv⟩ := holds_enter hdefs s.env hs.holds
  rw [← namedClasses_map] at henv
  have htokens : (r.state s).cursor.tokens.toList = r.tokens.toList.map r.token := by
    simp [Relocation.state, Relocation.cursor, hs.tokens]
  have hfile : (r.state s).cursor.file = r.file := hs.file
  rw [enterClasses_run, enterClasses_run, enteredClasses, enteredClasses]
  simp only [htokens, hfile, hs.tokens, hs.file]
  exact results_changeEnv hs rfl hholds henv

/-! ### Declarations -/

lemma agree_declareHere : K.Alike least Eq declareHere := by
  refine .look fun s hs => ?_
  simp only [Relocation.state, r.kindAfterNote_cursor, r.kind_cursor hs.proper,
    r.startsNamedFunction_cursor]
  refine .ite (fun _ => agree_classAhead) fun _ => .ite (fun _ => ?_) fun _ => .pure rfl
  exact agree_functionAhead.bind_eq fun _ => .pure rfl

lemma agree_cursor : K.Alike least (Maps r.cursor) cursor :=
  agree_peek (fun _ => rfl) (fun _ => rfl) fun _ _ => rfl

lemma agree_declarationsFrom (fuel depth : Nat) :
    K.Alike least Eq (declarationsFrom fuel depth) := by
  induction fuel generalizing depth with
  | zero => exact agree_spent
  | succ fuel ih =>
      refine .onKind fun here => .ite (fun _ => .pure rfl) fun _ => ?_
      refine agree_cursor.bind_maps fun c => ?_
      have hrest (declared : Option ClassId) : K.Agree least Eq
          (do
            if depth = 0 && (← cursor).index != c.index then
              let rest ← declarationsFrom fuel depth
              return declared.toList ++ rest
            else
              let token ← advance
              declarationsFrom fuel (depthAfter depth token.kind))
          (do
            if depth = 0 && (← cursor).index != (r.cursor c).index then
              let rest ← declarationsFrom fuel depth
              return declared.toList ++ rest
            else
              let token ← advance
              declarationsFrom fuel (depthAfter depth token.kind)) := by
        refine agree_cursor.bind_maps fun c => .ite (fun _ => ?_) fun _ => ?_
        · exact (ih depth).bind_eq fun rest => .pure rfl
        · exact .advance fun token _ => ih _
      refine .ite (fun _ => ?_) fun _ => hrest none
      exact (agree_declareHere.recover rfl).bind_eq hrest

lemma agree_checkAllInheritance (ids : List ClassId) :
    K.Alike least Eq (checkAllInheritance ids) := by
  induction ids with
  | nil => exact .pure rfl
  | cons id ids ih => exact (agree_checkInheritance id).bind_eq fun _ => ih

/-- The cursor may go back to the first token only if nothing was to be passed over. -/
lemma agree_rewind : K.Alike 0 Eq rewind := by
  intro s hs
  have hstate : { r.state s with cursor := (r.cursor s.cursor).moveTo 0 } =
      r.state { s with cursor := s.cursor.moveTo 0 } := by
    rw [r.moveTo_cursor]
    rfl
  have hok : K.Results 0 Eq (.ok () { s with cursor := s.cursor.moveTo 0 })
      (.ok () (r.state { s with cursor := s.cursor.moveTo 0 })) :=
    .ok rfl { hs with proper := hs.proper.moveTo_zero, reached := Nat.zero_le _ }
  rw [← hstate] at hok
  exact hok

lemma agree_declarations : K.Alike 0 Eq declarations := by
  refine agree_rewind.bind_eq fun _ => .bound fun n => ?_
  exact (agree_declarationsFrom n 0).bind_eq agree_checkAllInheritance

/-- The analysis of a file does the same to the tokens at their new places. -/
lemma agree_program : K.Alike 0 Eq program := by
  refine agree_enterClasses.bind_eq fun _ => agree_declarations.bind_eq fun _ => ?_
  exact agree_rewind.bind_eq fun _ => agree_statements agree_stmt []

end Check

end ScriptCheck
