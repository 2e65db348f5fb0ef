import ScriptCheck.Analysis.Decl.Class
import ScriptCheck.Proofs.Class.Relocated
import ScriptCheck.Proofs.Token.Progress

/-!
The same tokens at other places.

A `Relocation` gives the tokens of a file other places, and moves the positions in a log and in the
tables along. Positions are compared twice in an analysis: a report is dropped if the log has it,
and a declaration is known again by its place. So the positions of reports are moved by an injective
map, and those of declarations by one that takes nothing else to the place of a token, the first
token apart. The two maps need not be the same: what is declared before the file is read stays where
it is, even if the file has its name.

What a cursor does depends on the kinds and values of the tokens only, and what the tables answer
does not depend on where things are declared, so both commute with a relocation.
-/

namespace ScriptCheck

/-- The position of one of some tokens of a file, the first one apart. -/
def IsInnerPlace (file : String) (tokens : Array Token) (p : Position) : Prop :=
  ∃ i token, 0 < i ∧ tokens[i]? = some token ∧ p = ⟨token.start, file⟩

/-- Other places for the tokens of a file. -/
structure Relocation where
  file : String
  tokens : Array Token
  /-- The new start of a token that starts at an offset. -/
  start : Nat → Nat
  /-- The new end of a token. -/
  stop : Token → Nat
  /-- The new position of a report. -/
  position : Position → Position
  /-- The new position of a declaration. -/
  origin : Position → Position
  position_here : ∀ offset, position ⟨offset, file⟩ = ⟨start offset, file⟩
  position_injective : Function.Injective position
  origin_zero : ∀ file, origin ⟨0, file⟩ = ⟨0, file⟩
  origin_eq_iff : ∀ p q, IsInnerPlace file tokens p → (origin q = position p ↔ q = p)

namespace Relocation

/-- The relocation that leaves everything where it is. -/
def stay (file : String) (tokens : Array Token) : Relocation where
  file := file
  tokens := tokens
  start := id
  stop := Token.stop
  position := id
  origin := id
  position_here _ := rfl
  position_injective := Function.injective_id
  origin_zero _ := rfl
  origin_eq_iff _ _ _ := Iff.rfl

variable (r : Relocation)

/-- Declarations move as reports do, apart from what stands at the first token. -/
lemma origin_eq {p : Position} (h : IsInnerPlace r.file r.tokens p) : r.origin p = r.position p :=
  (r.origin_eq_iff p p h).mpr rfl

/-! ### Cursors -/

/-- A token at its new place. -/
def token (t : Token) : Token := { t with start := r.start t.start, stop := r.stop t }

@[simp] lemma token_kind (t : Token) : (r.token t).kind = t.kind := rfl

@[simp] lemma token_value (t : Token) : (r.token t).value = t.value := rfl

/-- A cursor in the tokens at their new places. -/
def cursor (c : Cursor) : Cursor := { c with tokens := c.tokens.map r.token }

/-- A fault at its new place. -/
def fault (f : Fault) : Fault := { f with position := r.position f.position }

section Cursor

variable {c : Cursor}

@[simp] lemma cursor_index : (r.cursor c).index = c.index := rfl

@[simp] lemma cursor_file : (r.cursor c).file = c.file := rfl

lemma rest_cursor : (r.cursor c).rest = c.rest.map r.token := by
  simp [Cursor.rest, cursor, List.map_drop]

lemma remaining_cursor : (r.cursor c).remaining = c.remaining := by
  simp [Cursor.remaining, cursor]

lemma kindAhead_cursor (n : Nat) : (r.cursor c).kindAhead n = c.kindAhead n := by
  simp [Cursor.kindAhead, Cursor.ahead?, cursor, Function.comp_def]

lemma firstKind_map (l : List Token) : Cursor.firstKind (l.map r.token) = Cursor.firstKind l := by
  simp [Cursor.firstKind, Function.comp_def]

lemma afterNote_cursor : (r.cursor c).afterNote = c.afterNote.map r.token := by
  rw [Cursor.afterNote, rest_cursor, List.dropWhile_map, ← List.map_drop]
  rfl

lemma kindAfterNote_cursor : (r.cursor c).kindAfterNote = c.kindAfterNote := by
  rw [Cursor.kindAfterNote, afterNote_cursor, firstKind_map, Cursor.kindAfterNote]

lemma startsNamedFunction_cursor :
    (r.cursor c).startsNamedFunction = c.startsNamedFunction := by
  rw [Cursor.startsNamedFunction, Cursor.startsNamedFunction, kindAhead_cursor, afterNote_cursor,
    rest_cursor]
  split <;> simp only [← List.map_drop, firstKind_map]

lemma moveTo_cursor (index : Nat) : (r.cursor c).moveTo index = r.cursor (c.moveTo index) := by
  simp [Cursor.moveTo, cursor]

lemma throughClose_map (depth : Nat) (l : List Token) :
    Cursor.throughClose depth (l.map r.token) = Cursor.throughClose depth l := by
  induction l generalizing depth with
  | nil => rfl
  | cons t l ih =>
      rw [List.map_cons, Cursor.throughClose, Cursor.throughClose, token_kind]
      simp only [ih]

lemma brokenLength_map (depth : Nat) (l : List Token) :
    Cursor.brokenLength depth (l.map r.token) = Cursor.brokenLength depth l := by
  induction l generalizing depth with
  | nil => rfl
  | cons t l ih =>
      rw [List.map_cons, Cursor.brokenLength, Cursor.brokenLength, token_kind]
      simp only [ih]

lemma current_cursor (hc : c.IsProper) : (r.cursor c).current = r.token c.current := by
  have hinside := hc.inside
  rw [Cursor.current_eq hinside, Cursor.current_eq (by simpa [cursor] using hinside)]
  simp [cursor]

lemma kind_cursor (hc : c.IsProper) : (r.cursor c).kind = c.kind := by
  rw [Cursor.kind, current_cursor r hc, token_kind, Cursor.kind]

lemma position_cursor (hc : c.IsProper) (hfile : c.file = r.file) :
    (r.cursor c).position = r.position c.position := by
  rw [Cursor.position, Cursor.position, current_cursor r hc, cursor_file, hfile, r.position_here]
  rfl

lemma rejection_cursor (hc : c.IsProper) (hfile : c.file = r.file) :
    (r.cursor c).rejection = r.fault c.rejection := by
  rw [Cursor.rejection, current_cursor r hc, position_cursor r hc hfile]
  rfl

lemma missing_cursor (hc : c.IsProper) (hfile : c.file = r.file) (kind : Kind) :
    (r.cursor c).missing kind = r.fault (c.missing kind) := by
  rw [Cursor.missing, current_cursor r hc, position_cursor r hc hfile]
  rfl

lemma advance_cursor (hc : c.IsProper) : (r.cursor c).advance = r.cursor c.advance := by
  rw [Cursor.advance, Cursor.advance, kind_cursor r hc]
  split <;> rfl

/-- The cursor further on by some tokens. -/
lemma cursor_skip (n : Nat) :
    { r.cursor c with index := (r.cursor c).index + n } =
      r.cursor { c with index := c.index + n } := rfl

lemma resume_cursor (hc : c.IsProper) (start : Nat) :
    (r.cursor c).resume start = r.cursor (c.resume start) := by
  rw [Cursor.resume, Cursor.resume, cursor_index, advance_cursor r hc]
  split <;> simp only [rest_cursor, brokenLength_map, cursor_skip]

/-- Passing over a block moves the cursor as far as before, and fails as before. -/
lemma passBlock_cursor (hc : c.IsProper) (hfile : c.file = r.file) :
    (r.cursor c).passBlock = (c.passBlock.1.mapError r.fault, r.cursor c.passBlock.2) := by
  rw [Cursor.passBlock, Cursor.passBlock, kind_cursor r hc, advance_cursor r hc,
    missing_cursor r hc hfile]
  split
  case isFalse => rfl
  case isTrue hopen =>
    have hskip := (hc.advance.skip (Cursor.throughClose_lt 1 hc.advance.hasEnd_rest)).2
    have hfile' : c.advance.file = r.file := c.onward_advance.file.trans hfile
    simp only [rest_cursor, throughClose_map, cursor_skip]
    split
    · rfl
    · rw [rejection_cursor r hskip hfile']
      rfl

end Cursor

/-! ### Reports -/

/-- Why a computation breaks off, at its new place. -/
def halt : Halt → Halt
  | .fault f => .fault (r.fault f)
  | .spent => .spent

/-- A report at its new place. -/
def diagnostic (d : Diagnostic) : Diagnostic := { d with position := r.position d.position }

/-- A log with its reports at their new places. -/
def log (l : Log) : Log := { l with entries := l.entries.map r.diagnostic }

lemma diagnostic_injective : Function.Injective r.diagnostic := by
  rintro ⟨p, severity, label, message, tip⟩ ⟨p', severity', label', message', tip'⟩ h
  simp only [diagnostic, Diagnostic.mk.injEq] at h
  obtain ⟨hp, rfl, rfl, rfl, rfl⟩ := h
  rw [r.position_injective hp]

lemma addFault_log (l : Log) (f : Fault) : (r.log l).addFault (r.fault f) = r.log (l.addFault f) := by
  have hcontains : (r.log l).entries.contains (.ofFault (r.fault f)) =
      l.entries.contains (.ofFault f) := by
    have hmem := List.mem_map_of_injective r.diagnostic_injective (a := Diagnostic.ofFault f)
      (l := l.entries)
    rw [Bool.eq_iff_iff, List.contains_iff_mem, List.contains_iff_mem]
    exact hmem
  have hseverity : (Diagnostic.ofFault (r.fault f)).severity = (Diagnostic.ofFault f).severity := rfl
  have hleast : (r.log l).least = l.least := rfl
  rw [Log.addFault, Log.addFault, Log.add, Log.add, hcontains, hseverity, hleast, apply_ite r.log]
  congr 1
  simp only [log, List.map_append]
  rfl

/-! ### Names -/

/-- A function with its position moved. -/
def function (f : FunctionDecl) : FunctionDecl := { f with position := r.origin f.position }

/-- The known names with the positions of their declarations moved. -/
def env (e : Env) : Env := { e with
  classes := e.classes.relocate r.origin
  functions := e.functions.map fun entry => (entry.1, r.function entry.2) }

lemma lookup_map_value {β γ : Type} (g : β → γ) (key : String) (l : List (String × β)) :
    (l.map fun entry => (entry.1, g entry.2)).lookup key = (l.lookup key).map g := by
  induction l with
  | nil => rfl
  | cons entry l ih =>
      obtain ⟨key', b⟩ := entry
      simp only [List.map_cons, List.lookup_cons, ih]
      split <;> rfl

lemma function?_env (e : Env) (name : String) :
    (r.env e).function? name = (e.function? name).map r.function :=
  lookup_map_value r.function (Text.nameKey name) e.functions

lemma addFunction_env (e : Env) (f : FunctionDecl) :
    (r.env e).addFunction (r.function f) = r.env (e.addFunction f) := by
  have hname : (r.function f).name = f.name := rfl
  rw [Env.addFunction, Env.addFunction, hname, function?_env, Option.isSome_map]
  split
  · rfl
  · simp only [env, List.map_append]
    rfl

lemma addConstant_env (e : Env) (name : String) (type : Ty) :
    (r.env e).addConstant name type = r.env (e.addConstant name type) := by
  have hknown : (r.env e).hasConstant name = e.hasConstant name := rfl
  rw [Env.addConstant, Env.addConstant, hknown, apply_ite r.env]
  rfl

lemma addClass_env (e : Env) (decl : ClassDef) :
    (r.env e).addClass (decl.relocate r.origin) =
      ((e.addClass decl).1, r.env (e.addClass decl).2) := by
  have hname : (decl.relocate r.origin).name = decl.name := rfl
  have hclasses : (r.env e).classes = e.classes.relocate r.origin := rfl
  rw [Env.addClass, Env.addClass, hclasses, ClassTable.add, ClassTable.add, hname,
    ClassTable.idOf?_relocate, ClassTable.size_relocate]
  cases e.classes.idOf? decl.name with
  | some id => rfl
  | none =>
      simp only [env, ClassTable.relocate, List.map_append]
      rfl

lemma modifyClass_env {g h : ClassDef → ClassDef} {e : Env} {id : ClassId}
    (hgh : ∀ decl ∈ e.classes.get? id, h (decl.relocate r.origin) = (g decl).relocate r.origin) :
    (r.env e).modifyClass id h = r.env (e.modifyClass id g) := by
  have hdefs : (e.classes.defs.map (ClassDef.relocate r.origin)).modify id h =
      (e.classes.defs.modify id g).map (ClassDef.relocate r.origin) := by
    refine List.ext_getElem? fun i => ?_
    simp only [List.getElem?_modify, List.getElem?_map]
    by_cases hi : id = i
    · subst hi
      cases hget : e.classes.defs[id]? with
      | none => rfl
      | some decl => simpa using hgh decl hget
    · simp [hi]
  simp only [Env.modifyClass, env, ClassTable.modify, ClassTable.relocate, hdefs]

/-! ### States -/

/-- A state with everything at its new place. -/
def state (s : State) : State := { s with
  cursor := r.cursor s.cursor
  log := r.log s.log
  env := r.env s.env }

lemma relocate_default : (default : ClassDef).relocate r.origin = default := by
  show ClassDef.mk _ _ _ _ _ _ _ _ _ _ _ (r.origin ⟨0, _⟩) = _
  rw [r.origin_zero]
  rfl

lemma named?_relocate (t : ClassTable) (name : String) :
    Descriptor.named? (t.relocate r.origin) name = Descriptor.named? t name := by
  simp only [Descriptor.named?, ClassTable.idOf?_relocate, ClassTable.nameOf_relocate]

/-- A descriptor has the same type wherever the classes are declared. -/
lemma compile_relocate (cache : TypeCache) (t : ClassTable) (descriptor : String) :
    cache.compile (t.relocate r.origin) descriptor = cache.compile t descriptor := by
  simp only [TypeCache.compile, TypeCache.compileParsed, named?_relocate]

lemma accepts_relocate (t : ClassTable) (strict : Bool) (target source : Ty) :
    target.accepts (t.relocate r.origin) strict source = target.accepts t strict source := by
  induction source generalizing target with
  | container key element ih => cases target <;> simp [Ty.accepts, ih]
  | _ => cases target <;> simp [Ty.accepts, ClassTable.isSubclass_relocate]

end Relocation

end ScriptCheck
