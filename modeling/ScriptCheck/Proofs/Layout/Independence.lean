import ScriptCheck.Proofs.Analysis.Screening
import ScriptCheck.Proofs.Class.Extension
import ScriptCheck.Proofs.Layout.Program

/-!
The layout of a file has no influence on its analysis.

Two layouts of a file have the same tokens, in kind and value, at different places. Each token of the
first has a counterpart in the second, and the places of the counterparts make a `Relocation`. That
a report stands at a token and nowhere else follows from the freedom in choosing it: two relocations
that differ everywhere but at the tokens lead to the same log.
-/

namespace ScriptCheck

/-- The same tokens of a file at two choices of places. -/
structure TwoLayouts where
  file : String
  first : List Token
  second : List Token
  text : first.map (fun t => (t.kind, t.value)) = second.map (fun t => (t.kind, t.value))
  first_starts : first.Pairwise (·.start < ·.start)
  second_starts : second.Pairwise (·.start < ·.start)

namespace TwoLayouts

/-- The tokens have the same index. -/
def Paired (l : TwoLayouts) (t t' : Token) : Prop :=
  ∃ i : Nat, l.first[i]? = some t ∧ l.second[i]? = some t'

/-- The second token of a pair whose first one starts at an offset. -/
def counterpart? (l : TwoLayouts) (offset : Nat) : Option Token :=
  ((l.first.zip l.second).find? (·.1.start == offset)).map (·.2)

/-- All tokens of the second layout start before this offset. -/
def beyond (l : TwoLayouts) : Nat := (l.second.map (·.start)).sum + 1

/-- A place for an offset where no token starts. There are two choices, which never meet. -/
def spare (l : TwoLayouts) (odd : Bool) (offset : Nat) : Nat := l.beyond + (2 * offset + odd.toNat)

/-- The new place of an offset. -/
def startAt (l : TwoLayouts) (odd : Bool) (offset : Nat) : Nat :=
  ((l.counterpart? offset).map (·.start)).getD (l.spare odd offset)

section Pairs

variable {l : TwoLayouts} {t t' u u' : Token} {offset : Nat} {odd : Bool}

lemma Paired.eq_right (h : l.Paired t t') (k : l.Paired u u') (heq : t.start = u.start) :
    t' = u' := by
  obtain ⟨i, hi, hi'⟩ := h
  obtain ⟨j, hj, hj'⟩ := k
  obtain rfl := eq_of_start_eq l.first_starts hi hj heq
  exact Option.some.inj (hi'.symm.trans hj')

lemma Paired.eq_left (h : l.Paired t t') (k : l.Paired u u') (heq : t'.start = u'.start) :
    t = u := by
  obtain ⟨i, hi, hi'⟩ := h
  obtain ⟨j, hj, hj'⟩ := k
  obtain rfl := eq_of_start_eq l.second_starts hi' hj' heq
  exact Option.some.inj (hi.symm.trans hj)

lemma mem_zip_iff {p : Token × Token} : p ∈ l.first.zip l.second ↔ l.Paired p.1 p.2 := by
  rw [List.mem_iff_getElem?]
  simp only [List.getElem?_zip_eq_some, Paired]

lemma exists_paired (h : l.counterpart? offset = some t') : ∃ t, l.Paired t t' ∧ t.start = offset := by
  obtain ⟨p, hfind, rfl⟩ := Option.map_eq_some_iff.mp h
  have hstart := List.find?_some hfind
  exact ⟨p.1, mem_zip_iff.mp (List.mem_of_find?_eq_some hfind), by simpa using hstart⟩

lemma Paired.counterpart? (h : l.Paired t t') : l.counterpart? t.start = some t' := by
  cases hfind : l.counterpart? t.start with
  | none =>
      rw [TwoLayouts.counterpart?, Option.map_eq_none_iff, List.find?_eq_none] at hfind
      exact absurd (hfind (t, t') (mem_zip_iff.mpr h)) (by simp)
  | some u' =>
      obtain ⟨u, hu, hstart⟩ := exists_paired hfind
      rw [hu.eq_right h hstart]

lemma Paired.startAt (h : l.Paired t t') : l.startAt odd t.start = t'.start := by
  rw [TwoLayouts.startAt, h.counterpart?]
  rfl

lemma Paired.lt_beyond (h : l.Paired t t') : t'.start < l.beyond := by
  obtain ⟨i, -, hi⟩ := h
  have hmem : t'.start ∈ l.second.map (·.start) := List.mem_map_of_mem (List.mem_of_getElem? hi)
  exact Nat.lt_succ_of_le (List.le_sum_of_mem hmem)

/-- An offset is that of a token and moves with it, or it goes to its spare place. -/
lemma startAt_cases (l : TwoLayouts) (odd : Bool) (offset : Nat) :
    (∃ t t', l.Paired t t' ∧ t.start = offset ∧ l.startAt odd offset = t'.start) ∨
      ∀ odd, l.startAt odd offset = l.spare odd offset := by
  cases hfind : l.counterpart? offset with
  | none => exact .inr fun odd => by rw [TwoLayouts.startAt, hfind]; rfl
  | some t' =>
      obtain ⟨t, ht, hstart⟩ := exists_paired hfind
      exact .inl ⟨t, t', ht, hstart, hstart ▸ ht.startAt⟩

lemma startAt_injective (l : TwoLayouts) (odd : Bool) : Function.Injective (l.startAt odd) := by
  intro m n h
  obtain ⟨t, t', ht, rfl, hm⟩ | hm := l.startAt_cases odd m
  · obtain ⟨u, u', hu, rfl, hn⟩ | hn := l.startAt_cases odd n
    · rw [ht.eq_left hu (hm.symm.trans (h.trans hn))]
    · have hlt := ht.lt_beyond
      rw [hm, hn odd, spare] at h
      omega
  · obtain ⟨u, u', hu, rfl, hn⟩ | hn := l.startAt_cases odd n
    · have hlt := hu.lt_beyond
      rw [hm odd, hn, spare] at h
      omega
    · rw [hm odd, hn odd, spare, spare] at h
      omega

end Pairs

/-! ### The relocation -/

end TwoLayouts

lemma isInnerPlace_iff {file : String} {tokens : List Token} {p : Position} :
    IsInnerPlace file tokens.toArray p ↔ p.file = file ∧ p.offset ∈ tokens.tail.map (·.start) := by
  constructor
  · rintro ⟨i, token, hpos, htoken, rfl⟩
    obtain ⟨k, rfl⟩ := Nat.exists_eq_succ_of_ne_zero hpos.ne'
    rw [List.getElem?_toArray, ← List.getElem?_tail] at htoken
    exact ⟨rfl, List.mem_map_of_mem (List.mem_of_getElem? htoken)⟩
  · rintro ⟨rfl, hmem⟩
    obtain ⟨token, htoken, hstart⟩ := List.mem_map.mp hmem
    obtain ⟨k, hk⟩ := List.getElem?_of_mem htoken
    rw [List.getElem?_tail] at hk
    refine ⟨k + 1, token, Nat.succ_pos k, by simpa using hk, ?_⟩
    rw [hstart]

instance (file : String) (tokens : List Token) (p : Position) :
    Decidable (IsInnerPlace file tokens.toArray p) :=
  decidable_of_iff _ isInnerPlace_iff.symm

namespace TwoLayouts

variable (l : TwoLayouts) (odd : Bool)

/-- Every token has one of the same index that says the same. -/
lemma exists_second {i : Nat} {t : Token} (h : l.first[i]? = some t) :
    ∃ t', l.second[i]? = some t' ∧ t'.kind = t.kind ∧ t'.value = t.value := by
  have htext := congrArg (·[i]?) l.text
  simp only [List.getElem?_map, h, Option.map_some] at htext
  obtain ⟨t', ht', heq⟩ := Option.map_eq_some_iff.mp htext.symm
  simp only [Prod.mk.injEq] at heq
  exact ⟨t', ht', heq.1, heq.2⟩

/-- The new position of a report. -/
def moved (p : Position) : Position :=
  if p.file = l.file then ⟨l.startAt odd p.offset, l.file⟩ else ⟨l.spare odd p.offset, p.file⟩

/-- The new position of a declaration. What is not declared in the file goes to an offset where no
declaration of the file can be. -/
def movedOrigin (p : Position) : Position :=
  if IsInnerPlace l.file l.first.toArray p then l.moved odd p else ⟨0, p.file⟩

lemma moved_injective : Function.Injective (l.moved odd) := by
  rintro ⟨m, file⟩ ⟨n, file'⟩ h
  have hfile : file = file' := by
    have h := congrArg Position.file h
    simp only [moved] at h
    split_ifs at h with hm hn hn
    · exact hm.trans hn.symm
    · exact absurd h.symm hn
    · exact absurd h hm
    · exact h
  subst hfile
  have hoffset := congrArg Position.offset h
  simp only [moved] at hoffset
  split_ifs at hoffset with hm
  · rw [l.startAt_injective odd hoffset]
  · simp only [spare] at hoffset
    rw [show m = n by omega]

/-- No inner place is at the start of a file, in either layout. -/
lemma offset_pos {p : Position} (h : IsInnerPlace l.file l.first.toArray p) :
    0 < p.offset ∧ 0 < (l.moved odd p).offset := by
  obtain ⟨i, t, hpos, ht, rfl⟩ := h
  rw [List.getElem?_toArray] at ht
  obtain ⟨t', ht', -⟩ := l.exists_second ht
  have hpaired : l.Paired t t' := ⟨i, ht, ht'⟩
  rw [moved, if_pos rfl, hpaired.startAt]
  exact ⟨start_pos l.first_starts ht hpos, start_pos l.second_starts ht' hpos⟩

/-- The relocation from the first layout to the second. -/
def relocation : Relocation where
  file := l.file
  tokens := l.first.toArray
  start := l.startAt odd
  stop t := ((l.counterpart? t.start).map (·.stop)).getD t.stop
  position := l.moved odd
  origin := l.movedOrigin odd
  position_here offset := by rw [moved, if_pos rfl]
  position_injective := l.moved_injective odd
  origin_zero file := by
    rw [movedOrigin, if_neg]
    exact fun h => (l.offset_pos odd h).1.ne rfl
  origin_eq_iff p q hp := by
    rw [movedOrigin]
    split_ifs with hq
    · exact (l.moved_injective odd).eq_iff
    · constructor
      · exact fun h => absurd (congrArg Position.offset h) (l.offset_pos odd hp).2.ne
      · exact fun h => absurd (h ▸ hp) hq

lemma map_token : l.first.map (l.relocation odd).token = l.second := by
  refine List.ext_getElem? fun i => ?_
  rw [List.getElem?_map]
  cases ht : l.first[i]? with
  | none =>
      have hlength := congrArg List.length l.text
      simp only [List.length_map] at hlength
      rw [List.getElem?_eq_none_iff, hlength, ← List.getElem?_eq_none_iff] at ht
      rw [ht]
      rfl
  | some t =>
      obtain ⟨⟨kind, value, start, stop⟩, ht', rfl, rfl⟩ := l.exists_second ht
      have hpaired : l.Paired t _ := ⟨i, ht, ht'⟩
      rw [ht', Option.map_some, Relocation.token]
      simp only [relocation, hpaired.startAt, hpaired.counterpart?]
      rfl

end TwoLayouts

/-! ### What is known before the file is read -/

/-- The classes known before a file is read. -/
def builtinClasses : ClassTable := Builtin.env.1.classes

/-- The class stands at the start of a file, and so do its members. -/
def ClassDef.standsAtZero (decl : ClassDef) : Bool :=
  decl.position.offset == 0 && decl.constants.all (·.position.offset == 0) &&
    decl.properties.all (·.position.offset == 0) && decl.methods.all (·.position.offset == 0)

/-- Everything that is known is declared at the start of a file. -/
def Env.standsAtZero (env : Env) : Bool :=
  env.classes.defs.all (·.standsAtZero) && env.functions.all (·.2.position.offset == 0)

/-- What is known before a file is read: eight classes, which are declared and have parents of
smaller numbers, and with whose inheritance nothing is wrong. Everything stands at the start of a
file. -/
lemma builtin_facts :
    (builtinClasses.size = 8 ∧ ∀ id < 8, (∀ parent ∈ builtinClasses.parents id, parent < id) ∧
      Check.inheritanceFaults builtinClasses id = [] ∧
      ∀ decl ∈ builtinClasses.get? id, decl.isDeclared = true) ∧
    Builtin.env.1.standsAtZero = true := by
  decide +kernel

lemma builtinClasses_size : builtinClasses.size = 8 := builtin_facts.1.1

lemma map_eq_self {α : Type} {f : α → α} {l : List α} (h : ∀ a ∈ l, f a = a) : l.map f = l :=
  (List.map_congr_left h).trans (List.map_id l)

/-- What stands at the start of a file stays there. -/
lemma Relocation.env_eq_self (r : Relocation) {env : Env} (h : env.standsAtZero = true) :
    r.env env = env := by
  have hzero : ∀ p : Position, p.offset = 0 → r.origin p = p := by
    rintro ⟨offset, file⟩ rfl
    exact r.origin_zero file
  simp only [Env.standsAtZero, ClassDef.standsAtZero, Bool.and_eq_true, List.all_eq_true,
    beq_iff_eq] at h
  obtain ⟨hclasses, hentries⟩ := h
  have hdefs : env.classes.relocate r.origin = env.classes := by
    refine congrArg ClassTable.mk (map_eq_self fun decl hdecl => ?_)
    obtain ⟨⟨⟨hdecl, hconstants⟩, hproperties⟩, hmethods⟩ := hclasses decl hdecl
    rw [ClassDef.relocate, hzero _ hdecl,
      map_eq_self fun c hc => by rw [Constant.relocate, hzero _ (hconstants c hc)],
      map_eq_self fun p hp => by rw [Property.relocate, hzero _ (hproperties p hp)],
      map_eq_self fun m hm => by rw [Method.relocate, hzero _ (hmethods m hm)]]
  have hfunctions : env.functions.map (fun entry => (entry.1, r.function entry.2)) =
      env.functions := by
    refine map_eq_self fun entry hentry => ?_
    rw [Relocation.function, hzero _ (hentries entry hentry)]
  rw [Relocation.env, hdefs, hfunctions]

lemma start_eq (file : String) (tokens : List Token) (options : Options) :
    State.start file tokens options =
      { cursor := { file := file, tokens := tokens.toArray }
        options := options
        log := { least := options.least }
        types := Builtin.env.2
        env := Builtin.env.1 } := by
  rw [State.start]

/-- The start of the analysis of the second layout is that of the first, relocated. -/
lemma TwoLayouts.state_start (l : TwoLayouts) (odd : Bool) (options : Options) :
    (l.relocation odd).state (State.start l.file l.first options) =
      State.start l.file l.second options := by
  rw [start_eq, start_eq, Relocation.state, Relocation.env_eq_self _ builtin_facts.2]
  simp only [Relocation.cursor, Relocation.log, List.map_toArray, l.map_token odd]
  rfl

/-! ### The law -/

/-- The first classes are those that were known before the file is read, and the others stand at
tokens of the file. -/
structure HasBuiltins (file : String) (tokens : Array Token) (t : ClassTable) : Prop where
  le_size : 8 ≤ t.size
  known : ∀ id < 8, t.get? id = builtinClasses.get? id
  placed : ∀ id decl, 8 ≤ id → t.get? id = some decl → IsInnerPlace file tokens decl.position

namespace HasBuiltins

variable {file : String} {tokens : Array Token} {t : ClassTable} {id : ClassId}

/-- A class that is not declared was not known before. -/
lemma le_of_undeclared (h : HasBuiltins file tokens t)
    (hundeclared : ∀ decl ∈ t.get? id, decl.isDeclared = false) : 8 ≤ id := by
  by_contra hlt
  have hid : id < 8 := Nat.lt_of_not_le hlt
  have hlt : id < t.defs.length := hid.trans_le h.le_size
  have hget : t.get? id = some t.defs[id] := List.getElem?_eq_getElem hlt
  have hdeclared := (builtin_facts.1.2 id hid).2.2 _ (h.known id hid ▸ hget)
  rw [hundeclared _ hget] at hdeclared
  cases hdeclared

lemma add (h : HasBuiltins file tokens t) {decl : ClassDef}
    (hdecl : IsInnerPlace file tokens decl.position) : HasBuiltins file tokens (t.add decl).2 := by
  rw [ClassTable.add]
  split
  · exact h
  · have hget {id : ClassId} (hid : id < t.size) :
        ClassTable.get? ⟨t.defs ++ [decl]⟩ id = t.get? id := List.getElem?_append_left hid
    refine ⟨?_, fun id hid => (hget (hid.trans_le h.le_size)).trans (h.known id hid), ?_⟩
    · exact h.le_size.trans (by simp [ClassTable.size])
    · intro id found hid hfound
      by_cases hlt : id < t.size
      · exact h.placed id found hid ((hget hlt).symm.trans hfound)
      · have hlast : [decl][id - t.defs.length]? = some found := by
          rw [← List.getElem?_append_right (Nat.le_of_not_lt hlt)]
          exact hfound
        rw [List.mem_singleton.mp (List.mem_of_getElem? hlast)]
        exact hdecl

lemma modify (h : HasBuiltins file tokens t) (hid : 8 ≤ id) {g : ClassDef → ClassDef}
    (hg : ∀ decl, IsInnerPlace file tokens decl.position →
      IsInnerPlace file tokens (g decl).position) : HasBuiltins file tokens (t.modify id g) := by
  have hget (k : ClassId) : (t.modify id g).get? k =
      (t.get? k).map (fun decl => if id = k then g decl else decl) := by
    rw [ClassTable.get?, ClassTable.modify, List.getElem?_modify]
    rfl
  refine ⟨by simpa [ClassTable.modify, ClassTable.size] using h.le_size, fun k hk => ?_, ?_⟩
  · have hne : id ≠ k := (hk.trans_le hid).ne'
    simp only [hget, hne, if_false, Option.map_id', h.known k hk]
  · intro k decl hk hdecl
    rw [hget, Option.map_eq_some_iff] at hdecl
    obtain ⟨decl, hdecl, rfl⟩ := hdecl
    have hplaced := h.placed k decl hk hdecl
    split_ifs
    · exact hg decl hplaced
    · exact hplaced

/-- A class with a faulty inheritance stands in the file. -/
lemma isInnerPlace (h : HasBuiltins file tokens t) {decl : ClassDef} (hdecl : t.get? id = some decl)
    (hfaults : Check.inheritanceFaults t id ≠ []) : IsInnerPlace file tokens decl.position := by
  have hbelow : ClassTable.SameBelow 8 builtinClasses t :=
    ⟨builtinClasses_size.ge, h.le_size, h.known, fun id hid => (builtin_facts.1.2 id hid).1⟩
  refine h.placed id decl (Nat.le_of_not_lt fun hid => hfaults ?_) hdecl
  exact hbelow.inheritanceFaults hid (builtin_facts.1.2 id hid).2.1

end HasBuiltins

lemma hasBuiltins_builtin {file : String} {tokens : Array Token} :
    HasBuiltins file tokens builtinClasses where
  le_size := builtinClasses_size.ge
  known _ _ := rfl
  placed id decl hid hdecl := by
    have hlt := (List.getElem?_eq_some_iff.mp hdecl).1
    exact absurd (hlt.trans_eq builtinClasses_size) (Nat.not_lt_of_le hid)

lemma hasBuiltins_start (file : String) (tokens : List Token) (options : Options) :
    HasBuiltins file tokens.toArray (State.start file tokens options).env.classes := by
  have hclasses : (State.start file tokens options).env.classes = builtinClasses := by
    rw [start_eq, builtinClasses]
  rw [hclasses]
  exact hasBuiltins_builtin

/-- What is known in an analysis: the classes known before, and those declared at tokens. -/
def builtinLaw (r : Relocation) : r.Law where
  Holds _ _ env := HasBuiltins r.file r.tokens env.classes
  Fresh id := 8 ≤ id
  report _ _ h _ := h
  unknownMember _ h _ _ := h
  compile _ h := h
  addFunction f h := by
    rw [Env.addFunction]
    split
    · exact h
    · exact h
  addConstant name type h := by
    rw [Env.addConstant]
    split
    · exact h
    · exact h
  addClass _ h hname := h.add hname.isInnerPlace
  declare isInterface isAbstract isFinal isUnchecked superclass interfaces h hundeclared hp :=
    ⟨h.le_of_undeclared hundeclared, h.modify (h.le_of_undeclared hundeclared) fun _ _ => hp⟩
  addMember h hid hg := h.modify hid fun _ hdecl => by
    cases hg <;> exact hdecl
  placed h hdecl hfaults := r.origin_eq (h.isInnerPlace hdecl hfaults)

/-! ### Independence -/

/-- A report at a token, and the same report at the token of the same index. -/
def SameReport (file : String) (tokens tokens' : List Token) (d d' : Diagnostic) : Prop :=
  ∃ (i : Nat) (t t' : Token), tokens[i]? = some t ∧ tokens'[i]? = some t' ∧
    d.position = ⟨t.start, file⟩ ∧ d' = { d with position := ⟨t'.start, file⟩ }

/-- A position that both relocations take to the same place is that of a token. -/
lemma TwoLayouts.exists_paired_of_moved_eq (l : TwoLayouts) {p : Position}
    (h : l.moved false p = l.moved true p) : ∃ t t', l.Paired t t' ∧ p = ⟨t.start, l.file⟩ ∧
      l.moved false p = ⟨t'.start, l.file⟩ := by
  obtain ⟨offset, file⟩ := p
  have hoffset := congrArg Position.offset h
  simp only [moved] at hoffset ⊢
  split_ifs at hoffset ⊢ with hfile
  · obtain ⟨t, t', hpaired, rfl, hstart⟩ | hspare := l.startAt_cases false offset
    · exact ⟨t, t', hpaired, by rw [hfile], by rw [hstart]⟩
    · simp [hspare, spare] at hoffset
  · simp [spare] at hoffset

/-- **Layout independence.** Take any two lists of tokens that agree in kind and value, index by
index, each with strictly increasing starts and one end token, which is the last. Under any file name
and all options both are analyzed, with the same exits. The logs have the same reports in the same
order: each stands at a token of the first list, and in the second log at the token of the same
index. -/
theorem layout_independence (file : String) (options : Options) (tokens tokens' : List Token)
    (htext : tokens.map (fun t => (t.kind, t.value)) = tokens'.map (fun t => (t.kind, t.value)))
    (hlayout : IsLayout tokens) (hlayout' : IsLayout tokens') :
    ∃ exits s s', Check.program (State.start file tokens options) = .ok exits s ∧
      Check.program (State.start file tokens' options) = .ok exits s' ∧
      s'.log.least = s.log.least ∧
      List.Forall₂ (SameReport file tokens tokens') s.log.entries s'.log.entries := by
  let l : TwoLayouts := ⟨file, tokens, tokens', htext, hlayout.starts, hlayout'.starts⟩
  have hproper : (State.start file tokens options).cursor.IsProper := by
    rw [Check.cursor_start]
    exact hlayout.isProper file
  obtain ⟨exits, s, hrun⟩ := Check.exists_program hproper
  have hrun' (odd : Bool) : Check.program (State.start file tokens' options) =
      .ok exits ((l.relocation odd).state s) := by
    have hfits : (builtinLaw (l.relocation odd)).Fits 0 (State.start file tokens options) := {
      proper := hproper
      tokens := by rw [Check.cursor_start]; rfl
      file := by rw [Check.cursor_start]; rfl
      reached := Nat.zero_le _
      holds := hasBuiltins_start file tokens options }
    rw [← l.state_start odd options]
    exact Check.agree_program.run hfits hrun
  -- both relocations lead to the one end of the second analysis, so they move every report alike
  have hentries : s.log.entries.map (l.relocation false).diagnostic =
      s.log.entries.map (l.relocation true).diagnostic := by
    have h := (hrun' false).symm.trans (hrun' true)
    injection h with _ h
    exact congrArg (·.log.entries) h
  refine ⟨exits, s, _, hrun, hrun' false, rfl, ?_⟩
  show List.Forall₂ _ _ (s.log.entries.map (l.relocation false).diagnostic)
  rw [List.forall₂_map_right_iff, List.forall₂_same]
  intro d hd
  have hmoved := congrArg Diagnostic.position (List.map_inj_left.mp hentries d hd)
  obtain ⟨t, t', ⟨i, ht, ht'⟩, hp, hp'⟩ := l.exists_paired_of_moved_eq hmoved
  refine ⟨i, t, t', ht, ht', hp, ?_⟩
  rw [Relocation.diagnostic, ← hp']
  rfl

/-- A class that is declared twice, with the words so far apart. -/
def repeatedClass (gap : Nat) : List Token :=
  [⟨.kwClass, "class", 0, 5⟩, ⟨.name, "A", 6 + gap, 7 + gap⟩,
    ⟨.openCurly, "\x7b", 7 + gap, 8 + gap⟩, ⟨.closeCurly, "\x7d", 8 + gap, 9 + gap⟩,
    ⟨.kwClass, "class", 9 + gap, 14 + gap⟩, ⟨.name, "A", 15 + 2 * gap, 16 + 2 * gap⟩,
    ⟨.openCurly, "\x7b", 16 + 2 * gap, 17 + 2 * gap⟩,
    ⟨.closeCurly, "\x7d", 17 + 2 * gap, 18 + 2 * gap⟩, ⟨.eof, "", 18 + 2 * gap, 18 + 2 * gap⟩]

/-- The second declaration is reported in both layouts, each time at its name. -/
theorem layout_independence_repeatedClass :
    IsLayout (repeatedClass 0) ∧ IsLayout (repeatedClass 5) ∧
    ∃ exits s s', Check.program (State.start "main" (repeatedClass 0) {}) = .ok exits s ∧
      Check.program (State.start "main" (repeatedClass 5) {}) = .ok exits s' ∧
      s.log.entries.map (·.position.offset) = [15] ∧
      s'.log.entries.map (·.position.offset) = [25] ∧
      List.Forall₂ (SameReport "main" (repeatedClass 0) (repeatedClass 5)) s.log.entries
        s'.log.entries := by
  have htight : IsLayout (repeatedClass 0) :=
    ⟨by decide, (repeatedClass 0).dropLast, _, rfl, rfl, by decide⟩
  have hloose : IsLayout (repeatedClass 5) :=
    ⟨by decide, (repeatedClass 5).dropLast, _, rfl, rfl, by decide⟩
  obtain ⟨exits, s, s', hrun, hrun', -, hreports⟩ :=
    layout_independence "main" {} (repeatedClass 0) (repeatedClass 5) rfl htight hloose
  have hoffsets : (Check.endState (Check.program
      (State.start "main" (repeatedClass 0) {}))).log.entries.map (·.position.offset) = [15] := by
    decide +kernel
  have hoffsets' : (Check.endState (Check.program
      (State.start "main" (repeatedClass 5) {}))).log.entries.map (·.position.offset) = [25] := by
    decide +kernel
  rw [hrun] at hoffsets
  rw [hrun'] at hoffsets'
  exact ⟨htight, hloose, exits, s, s', hrun, hrun', hoffsets, hoffsets', hreports⟩

end ScriptCheck
