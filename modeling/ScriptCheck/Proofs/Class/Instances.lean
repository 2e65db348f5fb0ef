import ScriptCheck.Proofs.Class.GrowthLaw
import ScriptCheck.Proofs.Coherence.Program
import ScriptCheck.Proofs.Layout.Independence
import ScriptCheck.Proofs.Token.Symbols

/-!
The types of instances.

The type of the instances of a class is what the name of the class means as a descriptor. So it
is that of the class if the name is one that a descriptor can have and no reserved word, and if the
cache of compiled types fits the table of classes.

* `Reached`: the compiled types and the known names that the steps of an analysis lead to, in any
  order. Every state of an analysis has such (`reachedLaw`, `State.IsReached.of_agree`).
* `ClassTable.IsLegible`: what is reached keeps these conditions. A class is named by a token, and
  the names that a scan gives are names that descriptors can have (`isName_of_scan`).
* `instanceType_eq_class_unless_reserved`: hence in every state that is reached the instances of a
  class have the type of the class, unless its name is a reserved word.
-/

namespace ScriptCheck

/-! ### Names in a source -/

namespace Lexeme

/-- Without the separator in front, a name of a source is one that a descriptor can have. -/
lemma IsName.descriptor {value : String} (h : IsName value.toList) :
    Descriptor.IsName (Text.dropSeparators value).toList := by
  have hplain : ∀ {c tail}, isNameStart c = true → NameTail tail →
      Descriptor.IsName ((c :: tail).dropWhile (· == '\\')) := by
    intro c tail hc htail
    have hne : c ≠ '\\' := by
      rintro rfl
      exact absurd hc (by decide)
    rw [List.dropWhile_cons_of_neg (by simpa using hne)]
    exact ⟨c, tail, rfl, isNameStart_descriptor hc, htail.isNameRest⟩
  rw [Text.dropSeparators, String.toList_ofList]
  generalize value.toList = cs at h
  cases h with
  | plain hc htail => exact hplain hc htail
  | separated hc htail =>
      rw [List.dropWhile_cons_of_pos (by rfl)]
      exact hplain hc htail

/-- What the rule reads as a plain name is a name. -/
def Rule.ReadsNames (rule : Rule) : Prop :=
  ∀ cs n value, rule.length cs = some n → rule.reading (cs.take n) = .token .name value →
    IsName value.toList

lemma readsNames_of_ne {rule : Rule}
    (h : ∀ lexeme value, rule.reading lexeme ≠ .token .name value) : rule.ReadsNames :=
  fun _ _ value _ hreading => absurd hreading (h _ value)

lemma readsNames_fixed {spelling : String} {kind : Kind} (h : kind ≠ .name) :
    (Rule.fixed spelling kind).ReadsNames :=
  readsNames_of_ne fun _ _ hreading => h (Reading.token.inj hreading).1

lemma readsNames_name :
    Rule.ReadsNames ⟨name, fun cs => .token (nameKind (String.ofList cs)) (String.ofList cs)⟩ := by
  intro cs n value hlength hreading
  obtain ⟨lexeme, rest, rfl, rfl, hlexeme⟩ := eq_append_of_name hlength
  rw [List.take_left] at hreading
  rw [← (Reading.token.inj hreading).2, String.toList_ofList]
  exact hlexeme

lemma readsNames_of_mem {rule : Rule} (h : rule ∈ rules) : rule.ReadsNames := by
  have hoperators : ∀ op ∈ Kind.operators, op.2 ≠ .name := by decide
  have hskip : ∀ length, (Rule.skip length).ReadsNames := fun length =>
    readsNames_of_ne fun _ _ hreading => by cases hreading
  have hother : ∀ length (kind : Kind) (text : List Char → String), kind ≠ .name →
      Rule.ReadsNames ⟨length, fun cs => .token kind (text cs)⟩ := fun length kind text hkind =>
    readsNames_of_ne fun _ _ hreading => hkind (Reading.token.inj hreading).1
  have hall : ∀ rule ∈ rules, rule.ReadsNames := by
    rw [rules, List.forall_mem_append, List.forall_mem_map]
    refine ⟨?_, fun op hop => readsNames_fixed (hoperators op hop)⟩
    simp only [List.forall_mem_cons]
    exact ⟨hskip _, hskip _, hskip _, readsNames_fixed (by decide), readsNames_fixed (by decide),
      hskip _, hskip _, hother _ _ _ (by decide), readsNames_name, hother _ _ _ (by decide),
      hother _ _ _ (by decide), hother _ _ _ (by decide), List.forall_mem_nil _⟩
  exact hall rule h

lemma isName_of_first {cs : List Char} {value : String} {n : Nat}
    (h : first cs = some (.token .name value, n)) : IsName value.toList := by
  obtain ⟨rule, hrule, hfound⟩ := List.exists_of_findSome?_eq_some h
  obtain ⟨m, hm, heq⟩ := Option.map_eq_some_iff.mp hfound
  obtain ⟨hreading, rfl⟩ := Prod.mk.inj heq
  exact readsNames_of_mem hrule cs m value hm hreading

end Lexeme

lemma ReadsAs.isName {offset : Nat} {cs : List Char} {lexemes : List (List Char)}
    {tokens : List Token} (h : ReadsAs offset cs lexemes tokens) :
    ∀ token ∈ tokens, token.kind = .name → Lexeme.IsName token.value.toList := by
  induction h with
  | done => exact List.forall_mem_singleton.mpr fun hkind => by cases hkind
  | skip _ _ _ ih => exact ih
  | token _ hfirst _ ih =>
      refine List.forall_mem_cons.mpr ⟨?_, ih⟩
      rintro rfl
      exact Lexeme.isName_of_first hfirst

/-- The names that a scan gives are names. -/
lemma isName_of_scan {file : String} {source : List Char} {tokens : List Token}
    (h : scan file source = .ok tokens) :
    ∀ token ∈ tokens, token.kind = .name → Lexeme.IsName token.value.toList := by
  obtain ⟨lexemes, hreads⟩ := scanFrom_eq_ok_iff.mp h
  exact hreads.isName

/-! ### Meanings in a table that grows -/

lemma ClassTable.Grows.nameOf_eq {t u : ClassTable} (h : t.Grows u) {id : ClassId}
    (hid : id < t.size) : u.nameOf id = t.nameOf id := by
  have hget : t.get? id = some t.defs[id] := List.getElem?_eq_getElem hid
  obtain ⟨decl, hdecl, hgrows⟩ := h id _ hget
  rw [nameOf, nameOf, hdecl, hget]
  exact hgrows.name

namespace Descriptor

variable {t u : ClassTable}

lemma named?_of_grows (h : t.Grows u) {name : String} {type : Ty}
    (hnamed : named? t name = some type) : named? u name = some type := by
  rcases named?_cases hnamed with hbasic | ⟨hbasic, id, hid, rfl⟩
  · rw [named?, hbasic]
  · have hlt : id < t.size := (List.findIdx?_eq_some_iff_getElem.mp hid).1
    rw [named?, hbasic, h.idOf?_eq hid, ← h.nameOf_eq hlt]
    rfl

/-- A text that has a meaning keeps it while the table grows. -/
lemma meaning_of_grows (h : t.Grows u) {descriptor : String} {type : Ty}
    (hmeaning : meaning t descriptor = .ok type) : meaning u descriptor = .ok type := by
  obtain ⟨name, tags, base, hparse, hnamed, rfl⟩ := exists_of_meaning hmeaning
  rw [meaning_of_parse?_some u hparse, named?_of_grows h hnamed]

/-- The name of a class means the class, unless it is a reserved word: then it means no class at
all. -/
lemma meaning_nameOf {id : ClassId} (hname : IsName (t.nameOf id).toList)
    (hid : t.idOf? (t.nameOf id) = some id) :
    ∃ type, meaning t (t.nameOf id) = .ok type ∧
      (Text.lowerAscii (t.nameOf id) ∉ reservedWords → type = .ofClass id (t.nameOf id)) ∧
      (Text.lowerAscii (t.nameOf id) ∈ reservedWords → type.class? = none) := by
  have hplain : String.ofList ((t.nameOf id).toList ++ writeTags []) = t.nameOf id := by
    rw [writeTags, List.flatMap_nil, List.append_nil, String.ofList_toList]
  rw [not_mem_reservedWords_iff, ← not_not (a := _ ∈ _), not_mem_reservedWords_iff]
  by_cases harray : IsArrayWord (t.nameOf id).toList
  · obtain ⟨keys, hkeys⟩ := meaning_arrayWord (t := t) harray []
    rw [hplain] at hkeys
    refine ⟨_, hkeys, fun h => absurd harray h.2, fun _ => ?_⟩
    cases keys with
    | nil => rfl
    | cons key keys => rfl
  · have hmeaning := meaning_modern t hname harray []
    rw [hplain, String.ofList_toList] at hmeaning
    cases hbasic : basic? (t.nameOf id) with
    | some type =>
        rw [named?, hbasic] at hmeaning
        have hbase := isBasic_of_basic? hbasic
        refine ⟨type, hmeaning, fun h => ?_, fun _ => ?_⟩
        · cases h.1
        · cases type <;> first | rfl | cases hbase
    | none =>
        rw [named?, hbasic, hid] at hmeaning
        exact ⟨_, hmeaning, fun _ => rfl, fun h => absurd ⟨rfl, harray⟩ h⟩

end Descriptor

lemma TypeCache.Sound.of_grows {cache : TypeCache} {t u : ClassTable} (h : cache.Sound t)
    (hgrows : t.Grows u) : cache.Sound u :=
  fun descriptor made hfind => Descriptor.meaning_of_grows hgrows (h descriptor made hfind)

/-! ### What an analysis leads to -/

/-- The compiled types and the known names that the steps of an analysis of some tokens lead to:
compiling a descriptor, adding a function, a constant or a class under a name of the tokens, and
declaring a class or adding a member to it. -/
inductive Reached (file : String) (tokens : Array Token) : TypeCache → Env → Prop
  | start : Reached file tokens Builtin.env.2 Builtin.env.1
  | compile {types : TypeCache} {env : Env} (descriptor : String) : Reached file tokens types env →
      Reached file tokens (types.compile env.classes descriptor).2 env
  | addFunction {types : TypeCache} {env : Env} (f : FunctionDecl) : Reached file tokens types env →
      Reached file tokens types (env.addFunction f)
  | addConstant {types : TypeCache} {env : Env} (name : String) (type : Ty) :
      Reached file tokens types env → Reached file tokens types (env.addConstant name type)
  | addClass {types : TypeCache} {env : Env} {name : String} {p : Position} (isInterface : Bool) :
      Reached file tokens types env → IsInnerName file tokens name p →
      Reached file tokens types (env.addClass (.stub name isInterface p)).2
  | declare {types : TypeCache} {env : Env} {id : ClassId} {p : Position}
      (isInterface isAbstract isFinal isUnchecked : Bool) (superclass : Option ClassId)
      (interfaces : List ClassId) : Reached file tokens types env →
      (∀ decl ∈ env.classes.get? id, decl.isDeclared = false) →
      Reached file tokens types (env.modifyClass id
        (.declare isInterface isAbstract isFinal isUnchecked p superclass interfaces))
  | addMember {types : TypeCache} {env : Env} {id : ClassId} {g : ClassDef → ClassDef} :
      Reached file tokens types env → AddsMember g →
      Reached file tokens types (env.modifyClass id g)

/-- Every step of an analysis is one of these. -/
def reachedLaw (file : String) (tokens : Array Token) : (Relocation.stay file tokens).Law where
  Holds _ types env := Reached file tokens types env
  Fresh _ := True
  report _ _ h _ := h
  unknownMember _ h _ _ := h
  compile descriptor h := h.compile descriptor
  addFunction f h := h.addFunction f
  addConstant name type h := h.addConstant name type
  addClass isInterface h hname := h.addClass isInterface hname
  declare _ _ _ _ _ _ h hundeclared _ := ⟨trivial, h.declare _ _ _ _ _ _ hundeclared⟩
  addMember h _ hg := h.addMember hg
  placed _ _ _ := rfl

/-- Every text is bound to its meaning, and the classes have different names, which descriptors can
have. -/
structure ClassTable.IsLegible (types : TypeCache) (t : ClassTable) : Prop where
  sound : types.Sound t
  distinct : t.keys.Nodup
  names : ∀ decl ∈ t.defs, Descriptor.IsName decl.name.toList

namespace ClassTable.IsLegible

variable {types : TypeCache} {t : ClassTable}

lemma builtin : IsLegible Builtin.env.2 Builtin.env.1.classes := by
  have hknown : (∀ entry ∈ Builtin.env.2.entries,
        (Descriptor.meaning Builtin.env.1.classes entry.1).toOption = some entry.2.type) ∧
      ∀ decl ∈ Builtin.env.1.classes.defs,
        Descriptor.parse? decl.name.toList = some (decl.name.toList, []) := by
    decide +kernel
  obtain ⟨hentries, hnames⟩ := hknown
  refine ⟨fun descriptor made hfind => ?_, coherent_builtin.1.classes.names, fun decl hdecl => ?_⟩
  · have hmeaning := hentries _ (mem_of_lookup hfind)
    cases hresult : Descriptor.meaning Builtin.env.1.classes descriptor with
    | error fault =>
        rw [hresult] at hmeaning
        cases hmeaning
    | ok type =>
        rw [hresult] at hmeaning
        exact congrArg Except.ok (Option.some.inj hmeaning)
  · exact (Descriptor.parse?_eq_some_iff.mp (hnames decl hdecl)).1

lemma compile (h : IsLegible types t) (descriptor : String) :
    IsLegible (types.compile t descriptor).2 t :=
  { h with sound := (TypeCache.compile_sound h.sound descriptor).2 }

lemma addStub (h : IsLegible types t) {name : String} (hname : Lexeme.IsName name.toList)
    (isInterface : Bool) (p : Position) : IsLegible types (t.add (.stub name isInterface p)).2 where
  sound := h.sound.add _
  distinct := keys_nodup_add h.distinct _
  names := by
    rw [add]
    split
    · exact h.names
    · exact List.forall_mem_append.mpr ⟨h.names, List.forall_mem_singleton.mpr hname.descriptor⟩

lemma modify (h : IsLegible types t) {id : ClassId} {g : ClassDef → ClassDef}
    (hgrows : t.Grows (t.modify id g)) (hg : ∀ decl, (g decl).name = decl.name) :
    IsLegible types (t.modify id g) where
  sound := h.sound.of_grows hgrows
  distinct := by
    rw [keys_modify id hg]
    exact h.distinct
  names := by
    intro decl hdecl
    obtain ⟨k, hk⟩ := List.mem_iff_getElem?.mp hdecl
    have hget : (t.modify id g).get? k = some decl := hk
    rw [get?_modify] at hget
    obtain ⟨old, hold, rfl⟩ := Option.map_eq_some_iff.mp hget
    have hname := h.names old (List.mem_of_getElem? hold)
    split
    · rw [hg]
      exact hname
    · exact hname

end ClassTable.IsLegible

lemma AddsMember.name_eq {g : ClassDef → ClassDef} (hg : AddsMember g) (decl : ClassDef) :
    (g decl).name = decl.name := by
  cases hg <;> rfl

/-- What an analysis of a source leads to is legible. -/
lemma Reached.isLegible {file : String} {source : List Char} {tokens : List Token}
    (hscan : scan file source = .ok tokens) {types : TypeCache} {env : Env}
    (h : Reached file tokens.toArray types env) : env.classes.IsLegible types := by
  induction h with
  | start => exact .builtin
  | compile descriptor _ ih => exact ih.compile descriptor
  | addFunction f _ ih =>
      rw [Env.addFunction]
      split
      · exact ih
      · exact ih
  | addConstant name type _ ih =>
      rw [Env.addConstant]
      split
      · exact ih
      · exact ih
  | @addClass _ _ _ p isInterface _ hname ih =>
      obtain ⟨i, token, -, htoken, hkind, rfl, -⟩ := hname
      have hmem : token ∈ tokens := List.mem_of_getElem? (by simpa using htoken)
      exact ih.addStub (isName_of_scan hscan token hmem hkind) isInterface p
  | declare _ _ _ _ _ _ _ hundeclared ih =>
      exact ih.modify (.declare (.refl _) _ _ _ _ _ _ _ hundeclared) fun _ => rfl
  | addMember _ hg ih => exact ih.modify (.addMember (.refl _) _ hg) hg.name_eq

/-! ### The types of instances -/

/-- The type of the instances of a class is the meaning of its name. -/
lemma Check.instanceType_run {s : State} (hsound : s.types.Sound s.env.classes) {id : ClassId}
    {type : Ty} (h : Descriptor.meaning s.env.classes (s.env.classes.nameOf id) = .ok type) :
    ∃ types, Check.instanceType id s = .ok type { s with types := types } := by
  have hname : Check.className id s = .ok (s.env.classes.nameOf id) s := rfl
  refine ⟨(s.types.compile s.env.classes (s.env.classes.nameOf id)).2, ?_⟩
  rw [instanceType, bind_of_ok hname, typeOf, bind_of_ok (compile_run _ s),
    (TypeCache.compile_sound hsound _).1, h]
  rfl

/-- The state is one that an analysis of some tokens leads to. -/
structure State.IsReached (file : String) (tokens : Array Token) (s : State) : Prop where
  known : Reached file tokens s.types s.env
  proper : s.cursor.IsProper
  tokens : s.cursor.tokens = tokens
  file : s.cursor.file = file

namespace State.IsReached

variable {file : String} {tokens : Array Token} {s : State}

lemma fits (h : s.IsReached file tokens) : (reachedLaw file tokens).Fits 0 s where
  proper := h.proper
  tokens := h.tokens
  file := h.file
  reached := Nat.zero_le _
  holds := h.known

/-- What keeps every law leads from reached states to reached states. -/
lemma of_agree {α β : Type} {R : α → β → Prop} {m : Check α} {n : Check β}
    (h : s.IsReached file tokens) (hm : (reachedLaw file tokens).Agree 0 R m n) :
    (Check.endState (m s)).IsReached file tokens := by
  have hfits := hm.fits_endState h.fits
  exact ⟨hfits.holds, hfits.proper, hfits.tokens, hfits.file⟩

lemma start {source : List Char} {tokens : List Token} (hscan : scan file source = .ok tokens)
    (options : Options) : (State.start file tokens options).IsReached file tokens.toArray where
  known := by
    have htypes : (State.start file tokens options).types = Builtin.env.2 := by rw [start_eq]
    have henv : (State.start file tokens options).env = Builtin.env.1 := by rw [start_eq]
    rw [htypes, henv]
    exact .start
  proper := Check.isProper_start hscan options
  tokens := by rw [start_eq]
  file := by rw [start_eq]

lemma moment (h : s.IsReached file tokens) (moment : Moment) :
    (moment.state s).IsReached file tokens := by
  cases moment with
  | start => exact h
  | declaring steps =>
      refine h.of_agree (R := Eq) (n := Check.declaringUpTo steps) ?_
      refine Check.agree_enterClasses.bind_eq fun _ => Check.agree_rewind.bind_eq fun _ => ?_
      exact Check.agree_declarationsFrom steps 0
  | reading steps =>
      refine h.of_agree (R := Eq) (n := Check.readingUpTo steps) ?_
      refine Check.agree_enterClasses.bind_eq fun _ => Check.agree_declarations.bind_eq fun _ => ?_
      refine Check.agree_rewind.bind_eq fun _ => ?_
      exact Check.agree_statementsFrom Check.agree_stmt [] steps .passing false
  | done => exact h.of_agree Check.agree_program

end State.IsReached

/-- **The instances of a class have the type of the class, unless its name is a reserved word.** The
states of the analysis of a source are reached: those at its moments, and those that reading a
statement or an expression leads to. In every state that is reached the type of the instances of a
class is found. It is the type of the class, or the name is a reserved word and it is no type of a
class. -/
theorem instanceType_eq_class_unless_reserved (source file : String) (options : Options)
    (tokens : List Token) (hscan : scan file source.toList = .ok tokens) :
    (∀ moment : Moment,
      (moment.state (State.start file tokens options)).IsReached file tokens.toArray) ∧
    ∀ s : State, s.IsReached file tokens.toArray →
      (Check.endState (Check.stmt s)).IsReached file tokens.toArray ∧
      (∀ power, (Check.endState (Check.expr power s)).IsReached file tokens.toArray) ∧
      ∀ id < s.env.classes.size, ∃ type types,
        Check.instanceType id s = .ok type { s with types := types } ∧
        (Text.lowerAscii (s.env.classes.nameOf id) ∉ Descriptor.reservedWords →
          type = .ofClass id (s.env.classes.nameOf id)) ∧
        (Text.lowerAscii (s.env.classes.nameOf id) ∈ Descriptor.reservedWords →
          type.class? = none) := by
  refine ⟨(State.IsReached.start hscan options).moment, fun s hs => ?_⟩
  refine ⟨hs.of_agree (Check.agree_stmt 0), fun power => hs.of_agree Check.agree_expr, ?_⟩
  intro id hid
  have hlegible := hs.known.isLegible hscan
  have hname : Descriptor.IsName (s.env.classes.nameOf id).toList := by
    have hget : s.env.classes.get? id = some s.env.classes.defs[id] := List.getElem?_eq_getElem hid
    rw [ClassTable.nameOf, hget]
    exact hlegible.names _ (List.getElem_mem hid)
  obtain ⟨type, hmeaning, htype⟩ := Descriptor.meaning_nameOf hname
    (ClassTable.idOf?_nameOf_of_nodup hlegible.distinct hid)
  obtain ⟨types, hrun⟩ := Check.instanceType_run hlegible.sound hmeaning
  exact ⟨type, types, hrun, htype⟩

/-- The tokens of a file with one class, without members, whose name has three letters. -/
def loneClass (name : String) : List Token :=
  [⟨.kwClass, "class", 0, 5⟩, ⟨.name, name, 6, 9⟩, ⟨.openCurly, "\x7b", 10, 11⟩,
    ⟨.closeCurly, "\x7d", 11, 12⟩, ⟨.eof, "EOF", 12, 12⟩]

/-- The state after the analysis of the file. -/
def afterLoneClass (name : String) : State :=
  Moment.done.state (State.start "main" (loneClass name) {})

/-- The class of a file comes after the eight that are built in. -/
theorem instanceType_eq_class_unless_reserved_box :
    scan "main" "class Box \x7b\x7d".toList = .ok (loneClass "Box") ∧
    (afterLoneClass "Box").IsReached "main" (loneClass "Box").toArray ∧
    ∃ types, Check.instanceType 8 (afterLoneClass "Box") =
      .ok (.ofClass 8 "Box") { afterLoneClass "Box" with types := types } := by
  have hscan : scan "main" "class Box \x7b\x7d".toList = .ok (loneClass "Box") := by rfl
  obtain ⟨hmoments, hreached⟩ := instanceType_eq_class_unless_reserved _ _ {} _ hscan
  have hdone : (afterLoneClass "Box").IsReached "main" (loneClass "Box").toArray := hmoments .done
  obtain ⟨-, -, hinstances⟩ := hreached _ hdone
  have hclass : 8 < (afterLoneClass "Box").env.classes.size ∧
      (afterLoneClass "Box").env.classes.nameOf 8 = "Box" := by
    decide +kernel
  obtain ⟨type, types, hrun, htype, -⟩ := hinstances 8 hclass.1
  rw [htype (by rw [hclass.2]; decide), hclass.2] at hrun
  exact ⟨hscan, hdone, types, hrun⟩

/-- A class may be named like a basic type, and its instances are then taken to be of that type. -/
theorem keyword_class_has_basic_instances :
    scan "main" "class Int \x7b\x7d".toList = .ok (loneClass "Int") ∧
    (afterLoneClass "Int").env.classes.nameOf 8 = "Int" ∧
    (Check.instanceType 8).run' (afterLoneClass "Int") = some .int := by
  refine ⟨by rfl, ?_⟩
  decide +kernel

end ScriptCheck
