import ScriptCheck.Proofs.Analysis.Primitive
import ScriptCheck.Proofs.Raises.Parts

/-!
What operators raise.

The result of an operator should raise what its operands raise. Each reader of an operator is taken
through the rules of `Gathers`, which collect the expressions it reads, and its result is compared
with them.

* `Bears`: the result raises what the operand on the left and the parts raise. This holds of all
  operators but the arrow.
* `MemberRaises`: what the use of a member raises. It depends on what follows the arrow. A variable
  makes the result forget the object, and a method that the class of the object does not have makes
  it forget the arguments (`methodRaises`).
* `operator_keeps_raises`: so what the operand on the left raises is lost in the first case only, and
  of the parts only arguments of methods can be.
-/

namespace ScriptCheck.Check

variable {part left : Facts} {expr : ExprReader} {power : Power} {s : State}

/-- The result raises what the operand on the left and the parts raise. -/
def Bears (left : Facts) (parts : List Facts) (r : Facts) (_ : State) : Prop :=
  left.raises ⊆ r.raises ∧ allRaises parts ⊆ r.raises

lemma bears_union {parts : List Facts} {r : Facts}
    (h : r.raises = left.raises ∪ allRaises parts) : Bears left parts r s := by
  rw [Bears, ← NatSet.union_subset_iff, h]
  exact NatSet.subset_rfl

lemma allRaises_singleton (right : Facts) : allRaises [right] = right.raises :=
  NatSet.union_empty

/-! ### Operators with one expression on the right -/

/-- After one expression on the right, a result that raises what both sides raise. -/
lemma gathers_right {rest : Facts → Check Facts} {power : Power} {s : State}
    (h : ∀ right s, Gathers part s (rest right) (rest right) fun parts r _ =>
      parts = [] ∧ r.raises = left.raises ∪ right.raises) :
    Gathers part s (expr power >>= rest) (refusing part expr power >>= rest) (Bears left) := by
  refine (Gathers.single power).bind ?_
  rintro _ right s' - rfl
  refine (h right s').mono ?_
  rintro _ r _ ⟨rfl, hraises⟩
  refine bears_union ?_
  rw [hraises, List.append_nil, allRaises_singleton]

lemma gathers_assignment (left : Facts) (s : State) :
    Gathers part s (assignment expr left) (assignment (refusing part expr) left) (Bears left) := by
  refine .step fun operator _ _ => gathers_right fun right s => ?_
  cases left.target with
  | none => exact .step fun _ _ _ => .fails rfl
  | some target =>
      refine .step fun expected? _ _ => ?_
      cases expected? with
      | none => exact .pure ⟨rfl, rfl⟩
      | some expected =>
          refine .ite (fun _ => ?_) fun _ => .pure ⟨rfl, rfl⟩
          exact .step fun _ _ _ => .pure ⟨rfl, rfl⟩

lemma gathers_logical (power : Power) (left : Facts) (s : State) :
    Gathers part s (logical expr power left) (logical (refusing part expr) power left)
      (Bears left) :=
  .step fun _ _ _ => gathers_right fun _ _ => .step fun _ _ _ => .pure ⟨rfl, rfl⟩

lemma gathers_comparison (power : Power) (left : Facts) (s : State) :
    Gathers part s (comparison expr power left) (comparison (refusing part expr) power left)
      (Bears left) :=
  .step fun _ _ _ => gathers_right fun _ _ => .step fun _ _ _ => .pure ⟨rfl, rfl⟩

lemma gathers_arithmetic (power : Power) (left : Facts) (s : State) :
    Gathers part s (arithmetic expr power left) (arithmetic (refusing part expr) power left)
      (Bears left) :=
  .step fun _ _ _ => gathers_right fun _ _ => .step fun _ _ _ => .pure ⟨rfl, rfl⟩

/-! ### Conditionals -/

/-- The first branch is read, or it is the condition. -/
lemma gathers_firstBranch (condition : Facts) {s : State} :
    Gathers part s (firstBranch expr condition) (firstBranch (refusing part expr) condition)
      fun parts yes _ => parts = [yes] ∨ parts = [] ∧ yes = condition := by
  refine .step fun isShort _ _ => .ite (fun _ => .pure (.inr ⟨rfl, rfl⟩)) fun _ => ?_
  refine (Gathers.single _).bind ?_
  rintro _ branch _ - rfl
  exact .step fun _ _ _ => .pure (.inl rfl)

lemma gathers_conditional (condition : Facts) (s : State) :
    Gathers part s (conditional expr condition) (conditional (refusing part expr) condition)
      (Bears condition) := by
  refine .step fun _ _ _ => (gathers_firstBranch condition).bind fun parts yes _ _ hyes => ?_
  refine (Gathers.single _).bind ?_
  rintro _ no _ - rfl
  have hresult : ∀ (type : Ty) (truth : Option Bool) s, Bears condition (parts ++ ([no] ++ []))
      { type := type, truth := truth,
        raises := condition.raises ∪ (yes.raises ∪ no.raises), position := condition.position }
      s := by
    intro type truth s
    refine bears_union (NatSet.ext fun c => ?_)
    rcases hyes with rfl | ⟨rfl, rfl⟩ <;> simp [mem_allRaises]
  cases condition.truth with
  | none => exact .step fun _ _ _ => .pure (hresult _ _ _)
  | some holds => cases holds <;> exact .pure (hresult _ _ _)

/-! ### Tests, steps, calls and indices -/

lemma gathers_testedClass {s : State} :
    Gathers part s (testedClass expr) (testedClass (refusing part expr)) fun parts raises _ =>
      raises = allRaises parts := by
  have hread : ∀ (parts : List Facts) (tested : Facts) (s s' : State),
      expr .member s = .ok tested s' → parts = [tested] →
      Gathers part s' (Pure.pure tested.raises) (Pure.pure tested.raises) fun later raises _ =>
        raises = allRaises (parts ++ later) := by
    rintro _ tested _ _ - rfl
    exact .pure (allRaises_singleton tested).symm
  refine .step fun next s' _ => ?_
  cases next with
  | name | kwStatic =>
      refine .step fun token _ _ => .step fun owner _ _ => ?_
      refine .ite (fun _ => ?_) fun _ => .pure rfl
      exact .step fun _ _ _ => .step fun _ _ _ => .pure rfl
  | _ => exact (Gathers.single _).bind fun parts tested _ => hread parts tested s' _

lemma gathers_instanceTest (left : Facts) (s : State) :
    Gathers part s (instanceTest expr left) (instanceTest (refusing part expr) left)
      (Bears left) := by
  refine .step fun _ _ _ => gathers_testedClass.bind ?_
  rintro parts _ _ - rfl
  exact .step fun type _ _ => .pure (bears_union (by rw [List.append_nil]))

lemma gathers_step (left : Facts) (s : State) :
    Gathers part s (step left) (step left) (Bears left) := by
  refine .step fun operator _ _ => .ite (fun _ => .fails rfl) fun _ => .pure (bears_union ?_)
  exact NatSet.union_empty.symm

lemma gathers_valueCall (left : Facts) (s : State) :
    Gathers part s (valueCall expr left) (valueCall (refusing part expr) left) (Bears left) := by
  refine (gathers_arguments s).bind ?_
  rintro _ args _ - rfl
  exact .step fun type _ _ => .pure (bears_union (by rw [List.append_nil]))

lemma gathers_indexKey? {s : State} :
    Gathers part s (indexKey? expr) (indexKey? (refusing part expr)) fun parts key _ =>
      parts = key.toList := by
  refine .step fun next _ _ => .ite (fun _ => .pure rfl) fun _ => (Gathers.single _).bind ?_
  rintro _ key _ - rfl
  exact .pure rfl

lemma gathers_indexed (left : Facts) (s : State) :
    Gathers part s (indexed expr left) (indexed (refusing part expr) left) (Bears left) := by
  refine .step fun _ _ _ => gathers_indexKey?.bind ?_
  rintro _ key _ - rfl
  refine .step fun _ _ _ => .step fun element _ _ => .pure (bears_union ?_)
  rw [List.append_nil]

/-! ### Members -/

lemma objectClass_ok {object : Facts} {owner : Option ClassId} {s s' : State}
    (h : objectClass object s = .ok owner s') :
    owner = object.type.class? ∧ ∃ log, s' = { s with log := log } := by
  rw [objectClass] at h
  generalize object.type = type at h ⊢
  cases type <;> cases h <;> exact ⟨rfl, _, rfl⟩

/-- The method that a call means: a constructor is looked for along the extended classes only. -/
def called? (t : ClassTable) (id : ClassId) (name : String) : Option Method :=
  if Text.sameIgnoringCase name constructorName then t.constructorOf? id else t.method? id name

/-- What the call of a method raises. If the class is known but has no such method, what the
arguments raise is dropped. -/
def methodRaises (t : ClassTable) (owner : Option ClassId) (name : String) (args : List Facts) :
    NatSet :=
  match owner with
  | none => allRaises args
  | some id => match called? t id name with
    | none => ∅
    | some method => NatSet.ofList method.signature.throws ∪ allRaises args

lemma gathers_checkedCall (signature : Signature) (args : List Facts) (p : Position) (s : State) :
    Gathers part s (checkedCall signature args p) (checkedCall signature args p)
      fun parts raises _ =>
        parts = [] ∧ raises = NatSet.ofList signature.throws ∪ allRaises args := by
  simp only [checkedCall]
  refine .ite (fun _ => .step fun _ _ _ => ?_) fun _ => ?_
  all_goals
    split
    · refine .ite (fun _ => .step fun _ _ _ => ?_) fun _ => ?_
      all_goals exact .step fun _ _ _ => .pure ⟨rfl, rfl⟩
    · exact .step fun _ _ _ => .pure ⟨rfl, rfl⟩

lemma gathers_methodCall {owner : Option ClassId} {name : String} {p : Position} {s : State} :
    Gathers part s (methodCall expr owner name p) (methodCall (refusing part expr) owner name p)
      fun parts r _ => ∃ t, arguments expr s = .ok parts t ∧
        r.raises = methodRaises t.env.classes owner name parts := by
  refine (gathers_arguments s).bind ?_
  rintro args _ t hargs rfl
  cases owner with
  | none => exact .step fun type _ _ => .pure ⟨t, by rwa [List.append_nil], by rw [List.append_nil]; rfl⟩
  | some id =>
      refine .step fun table _ htable => ?_
      cases htable
      dsimp only
      rw [← called?]
      cases hcalled : called? t.env.classes id name with
      | none =>
          refine .step fun _ _ _ => .step fun type _ _ => .pure ⟨t, by rwa [List.append_nil], ?_⟩
          rw [methodRaises, hcalled]
      | some method =>
          refine .step fun _ _ _ => (gathers_checkedCall _ _ _ _).bind ?_
          rintro _ raises _ - ⟨rfl, rfl⟩
          refine .step fun type _ _ => .pure ⟨t, by simpa using hargs, ?_⟩
          rw [methodRaises, hcalled]
          simp

/-- What the use of a member of an object raises, and its parts, by what follows the arrow. -/
inductive MemberRaises (expr : ExprReader) (object : Facts) (s : State) :
    List Facts → NatSet → Prop
  | dynamic : s.cursor.advance.kind = .var → MemberRaises expr object s [] ∅
  | property : s.cursor.advance.kind = .name → s.cursor.advance.advance.kind ≠ .openParen →
      MemberRaises expr object s [] object.raises
  | method {args : List Facts} {log : Log} {after : State} : s.cursor.advance.kind = .name →
      arguments expr { s with cursor := s.cursor.advance.advance, log := log } = .ok args after →
      MemberRaises expr object s args
        (methodRaises after.env.classes object.type.class? s.cursor.advance.current.value args ∪
          object.raises)

lemma gathers_memberAccess (object : Facts) (s : State) :
    Gathers part s (memberAccess expr object) (memberAccess (refusing part expr) object)
      fun parts r _ => MemberRaises expr object s parts r.raises := by
  refine .step fun _ s₁ harrow => .step fun owner s₂ howner => .advance (.run rfl ?_)
  obtain ⟨-, rfl⟩ := require_ok harrow
  obtain ⟨rfl, log, rfl⟩ := objectClass_ok howner
  dsimp only
  cases hkind : s.cursor.advance.current.kind with
  | name =>
      refine .kind (.ite (fun _ => ?_) fun hopen => ?_)
      · refine gathers_methodCall.bind ?_
        rintro args r _ - ⟨t, hargs, hraises⟩
        refine .pure ?_
        rw [List.append_nil, hraises]
        exact .method hkind hargs
      · refine .step fun type _ _ => .pure ?_
        rw [NatSet.empty_union]
        exact .property hkind fun h => hopen (beq_iff_eq.mpr h)
  | var => exact .step fun type _ _ => .pure (.dynamic hkind)
  | _ => exact .fails rfl

/-! ### Any operator -/

/-- What an operator raises, and its parts. -/
inductive OperatorRaises (expr : ExprReader) (left : Facts) (s : State) (parts : List Facts)
    (r : Facts) : Prop
  | bears : s.cursor.kind ≠ .arrow → left.raises ⊆ r.raises → allRaises parts ⊆ r.raises →
      OperatorRaises expr left s parts r
  | member : s.cursor.kind = .arrow → MemberRaises expr left s parts r.raises →
      OperatorRaises expr left s parts r

lemma gathers_operator (power : Power) (left : Facts) (s : State) :
    Gathers part s (operator expr power left) (operator (refusing part expr) power left)
      fun parts r _ => OperatorRaises expr left s parts r := by
  have hbears : s.cursor.kind ≠ .arrow → ∀ parts r s', Bears left parts r s' →
      OperatorRaises expr left s parts r := fun hkind parts r s' h => .bears hkind h.1 h.2
  refine .kind ?_
  cases hkind : s.cursor.kind with
  | arrow => exact (gathers_memberAccess left s).mono fun parts r _ => .member hkind
  | assign | plusEquals | minusEquals | starEquals | slashEquals | dotEquals =>
      exact (gathers_assignment left s).mono (hbears (by simp [hkind]))
  | question => exact (gathers_conditional left s).mono (hbears (by simp [hkind]))
  | and | or => exact (gathers_logical power left s).mono (hbears (by simp [hkind]))
  | less | lessEquals | greater | greaterEquals | equals | notEquals | identical | notIdentical =>
      exact (gathers_comparison power left s).mono (hbears (by simp [hkind]))
  | plus | dash | dot | star | slash | percent =>
      exact (gathers_arithmetic power left s).mono (hbears (by simp [hkind]))
  | kwInstanceof => exact (gathers_instanceTest left s).mono (hbears (by simp [hkind]))
  | plusPlus | minusMinus => exact (gathers_step left s).mono (hbears (by simp [hkind]))
  | openParen => exact (gathers_valueCall left s).mono (hbears (by simp [hkind]))
  | openBracket => exact (gathers_indexed left s).mono (hbears (by simp [hkind]))
  | _ => exact .fails rfl

/-- An arrow and a variable: a member whose name is only known when the program runs. -/
def AtDynamicMember (c : Cursor) : Prop :=
  c.kind = .arrow ∧ c.advance.kind = .var

namespace OperatorRaises

variable {parts : List Facts} {r : Facts}

lemma left_subset (h : OperatorRaises expr left s parts r) (hname : ¬ AtDynamicMember s.cursor) :
    left.raises ⊆ r.raises := by
  cases h with
  | bears _ hleft _ => exact hleft
  | member hkind h =>
      generalize r.raises = raises at h ⊢
      cases h with
      | dynamic hvar => exact absurd ⟨hkind, hvar⟩ hname
      | property _ _ => exact NatSet.subset_rfl
      | method _ _ => exact NatSet.subset_union_right

lemma eq_empty (h : OperatorRaises expr left s parts r) (hname : AtDynamicMember s.cursor) :
    r.raises = ∅ := by
  obtain ⟨harrow, hvar⟩ := hname
  cases h with
  | bears hkind _ _ => exact absurd harrow hkind
  | member _ h =>
      generalize r.raises = raises at h ⊢
      cases h with
      | dynamic _ => rfl
      | property hkind _ => cases hvar.symm.trans hkind
      | method hkind _ => cases hvar.symm.trans hkind

lemma part_subset (h : OperatorRaises expr left s parts r) (hpart : part ∈ parts) :
    part.raises ⊆ r.raises ∨ s.cursor.kind = .arrow ∧ ∃ log args after,
      arguments expr { s with cursor := s.cursor.advance.advance, log := log } = .ok args after ∧
        part ∈ args := by
  cases h with
  | bears _ _ hparts => exact .inl (allRaises_subset_iff.mp hparts part hpart)
  | member hkind h =>
      generalize r.raises = raises at h
      cases h with
      | dynamic _ => cases hpart
      | property _ _ => cases hpart
      | method _ hargs => exact .inr ⟨hkind, _, _, _, hargs, hpart⟩

end OperatorRaises

/-- **Operators keep what their operands raise.** Whatever the reader of expressions, the state and
the operand on the left, the result of an operator raises all that the operand on the left raises,
except at a member whose name is a variable, which raises nothing. It raises all that an expression
raises that was read after the operator, unless that is an argument of a method. -/
theorem operator_keeps_raises (expr : ExprReader) (power : Power) (left : Facts) {s s' : State}
    {r : Facts} (hrun : operator expr power left s = .ok r s') :
    (¬ AtDynamicMember s.cursor → left.raises ⊆ r.raises) ∧
      (AtDynamicMember s.cursor → r.raises = ∅) ∧
      ∀ part, ReadsPart (operator · power left) expr s part →
        part.raises ⊆ r.raises ∨ s.cursor.kind = .arrow ∧ ∃ log args after,
          arguments expr { s with cursor := s.cursor.advance.advance, log := log } =
            .ok args after ∧ part ∈ args := by
  have hgathers : ∀ part, Gathers part s (operator expr power left)
      (operator (refusing part expr) power left) fun parts r _ =>
        OperatorRaises expr left s parts r := fun part => gathers_operator power left s
  obtain ⟨parts, hraises, -⟩ := hgathers left r s' hrun
  refine ⟨hraises.left_subset, hraises.eq_empty, fun part hpart => ?_⟩
  obtain ⟨parts, hraises, hmem⟩ := hpart.exists_mem (hgathers part) hrun
  exact hraises.part_subset hmem

/-- Two functions that raise an exception each. -/
def raisers : Env :=
  (({} : Env).addFunction ⟨"g", { throws := [1] }, default⟩).addFunction
    ⟨"h", { throws := [2] }, default⟩

/-- An expression that raises a third exception. -/
def raising : Facts := { type := .mixed, raises := NatSet.ofList [3], position := default }

/-- The question mark of a conditional whose branches are calls of the two functions. -/
def atConditional : State where
  cursor := { file := "main", tokens := #[⟨.question, "?", 0, 1⟩, ⟨.name, "g", 2, 3⟩,
    ⟨.openParen, "(", 3, 4⟩, ⟨.closeParen, ")", 4, 5⟩, ⟨.colon, ":", 6, 7⟩, ⟨.name, "h", 8, 9⟩,
    ⟨.openParen, "(", 9, 10⟩, ⟨.closeParen, ")", 10, 11⟩, .ending 11] }
  env := raisers

theorem operator_keeps_raises_conditional :
    ∃ r s' part, operator (exprWithin 9) .ternary raising atConditional = .ok r s' ∧
      ReadsPart (operator · .ternary raising) (exprWithin 9) atConditional part ∧
      2 ∈ part.raises ∧ raising.raises ⊆ r.raises ∧ part.raises ⊆ r.raises := by
  let part : Facts := { type := .null, raises := NatSet.ofList [2], position := ⟨8, "main"⟩ }
  obtain ⟨s', hrun⟩ := exists_of_run' (m := operator (exprWithin 9) .ternary raising)
    (s := atConditional)
    (a := { type := .null, raises := NatSet.ofList [1, 2, 3], position := default })
    (by decide +kernel)
  have hpart : ReadsPart (operator · .ternary raising) (exprWithin 9) atConditional part :=
    exists_error_of_run' (by decide +kernel)
  obtain ⟨hleft, -, hparts⟩ := operator_keeps_raises _ _ _ hrun
  have hkind : atConditional.cursor.kind = .question := by decide
  refine ⟨_, s', part, hrun, hpart, by decide, hleft ?_, (hparts part hpart).resolve_right ?_⟩
  · exact fun h => absurd (hkind.symm.trans h.1) (by decide)
  · exact fun h => absurd (hkind.symm.trans h.1) (by decide)

/-- The arrow before a variable. -/
def atVariableMember : State where
  cursor := { file := "main", tokens := #[⟨.arrow, "->", 0, 2⟩, ⟨.var, "x", 2, 4⟩, .ending 4] }

/-- What the object raises is lost where the name of its member is a variable. -/
theorem dynamic_member_drops_raises :
    ∃ r s', operator (exprWithin 9) .member raising atVariableMember = .ok r s' ∧
      3 ∈ raising.raises ∧ 3 ∉ r.raises := by
  obtain ⟨s', hrun⟩ := exists_of_run' (m := operator (exprWithin 9) .member raising)
    (s := atVariableMember)
    (a := { type := .mixed, target := some (.typed .mixed), position := ⟨2, "main"⟩ })
    (by decide +kernel)
  exact ⟨_, s', hrun, by decide, by decide⟩

end ScriptCheck.Check
