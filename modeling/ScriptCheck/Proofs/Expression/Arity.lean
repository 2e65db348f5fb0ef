import ScriptCheck.Proofs.Class.GrowthLaw

/-!
Arguments and the parameters they are bound to.

The number of arguments of a call is compared with the number of required parameters, but an
argument is bound to the parameter at its own place.

* `arityAccepted_iff`: a call is not reported for the number of its arguments exactly if there are
  at least as many as required parameters, and no more than parameters.
* `requiredFirst_iff`: the required parameters are the first ones exactly if each stands at a place
  below their number.
* `accepted_calls_bind_iff`: hence a call that is not reported binds every required parameter
  exactly if no optional one comes before.
-/

namespace ScriptCheck

/-! ### Reports about the number of arguments -/

lemma mem_foldl_addFault {faults : List Fault} {log : Log} {d : Diagnostic}
    (h : d ∈ (faults.foldl Log.addFault log).entries) :
    d ∈ log.entries ∨ ∃ fault ∈ faults, d = .ofFault fault := by
  induction faults generalizing log with
  | nil => exact .inl h
  | cons fault faults ih =>
      rcases ih h with h | ⟨fault', hfault, rfl⟩
      · exact (mem_addFault h).imp_right fun h => ⟨fault, List.mem_cons_self, h⟩
      · exact .inr ⟨fault', List.mem_cons_of_mem _ hfault, rfl⟩

/-- The report is about the number of arguments. -/
def Diagnostic.isAboutArity (d : Diagnostic) : Bool :=
  d.label == some "MissingArguments" || d.label == some "UnexpectedArguments"

namespace Check

/-- What a computation logs if the log is empty before. -/
def reportsOf {α : Type} (m : Check α) (s : State) : List Diagnostic :=
  match m { s with log := { s.log with entries := [] } } with
  | .ok _ s' => s'.log.entries
  | .error _ s' => s'.log.entries

/-- A call is not reported for the number of its arguments. -/
def ArityAccepted (signature : Signature) (args : List Facts) (position : Position) (s : State) :
    Prop :=
  ∀ d ∈ reportsOf (checkedCall signature args position) s, d.isAboutArity = false

/-- The types of arguments are only reported as not accepted. -/
lemma checkArguments_eq (signature : Signature) (index : Nat) (args : List Facts) (s : State) :
    ∃ faults : List Fault, (∀ fault ∈ faults, fault.cause.isMismatch = true) ∧
      checkArguments signature index args s =
        .ok () { s with log := faults.foldl Log.addFault s.log } := by
  induction args generalizing index s with
  | nil => exact ⟨[], by simp, rfl⟩
  | cons arg args ih =>
      rw [checkArguments]
      cases signature.parameterAt index with
      | none => exact ih _ s
      | some param =>
          dsimp only
          rw [accepts_bind]
          by_cases haccepts : param.type.accepts s.env.classes s.options.strict arg.type = true
          · rw [if_pos haccepts]
            exact ih _ s
          · rw [if_neg haccepts]
            let refused : Fault :=
              ⟨.argumentMismatch param.type.display arg.type.display, arg.position⟩
            obtain ⟨faults, hfaults, hrun⟩ :=
              ih (index + 1) { s with log := s.log.addFault refused }
            exact ⟨refused :: faults, List.forall_mem_cons.mpr ⟨rfl, hfaults⟩, hrun⟩

/-- The faults in the number of arguments. -/
def arityFaults (signature : Signature) (count : Nat) (position : Position) : List Fault :=
  (if count < signature.requiredCount then
    [⟨.tooFewArguments signature.requiredCount count, position⟩] else []) ++
  match signature.maxCount with
  | some most => if most < count then [⟨.tooManyArguments most count, position⟩] else []
  | none => []

lemma checkedCall_eq (signature : Signature) (args : List Facts) (position : Position) (s : State) :
    ∃ faults : List Fault, (∀ fault ∈ faults, fault.cause.isMismatch = true) ∧
      checkedCall signature args position s =
        .ok (NatSet.ofList signature.throws ∪ allRaises args) { s with
          log := (arityFaults signature args.length position ++ faults).foldl .addFault s.log } := by
  obtain ⟨faults, hfaults, hrun⟩ := checkArguments_eq signature 0 args { s with
    log := (arityFaults signature args.length position).foldl Log.addFault s.log }
  refine ⟨faults, hfaults, ?_⟩
  rw [List.foldl_append]
  have hcall : checkedCall signature args position s =
      (checkArguments signature 0 args >>= fun _ =>
        pure (NatSet.ofList signature.throws ∪ allRaises args)) { s with
          log := (arityFaults signature args.length position).foldl Log.addFault s.log } := by
    rw [checkedCall, arityFaults]
    by_cases hfew : args.length < signature.requiredCount
    · rw [if_pos hfew, if_pos hfew]
      cases signature.maxCount with
      | none => rfl
      | some most => dsimp only; split_ifs <;> rfl
    · rw [if_neg hfew, if_neg hfew]
      cases signature.maxCount with
      | none => rfl
      | some most => dsimp only; split_ifs <;> rfl
  rw [hcall]
  show EStateM.bind _ _ _ = _
  rw [EStateM.bind, hrun]
  rfl

lemma arityFaults_eq_nil_iff {signature : Signature} {count : Nat} {position : Position} :
    arityFaults signature count position = [] ↔
      signature.requiredCount ≤ count ∧ ∀ most ∈ signature.maxCount, count ≤ most := by
  rw [arityFaults]
  cases signature.maxCount <;> simp

lemma isAboutArity_of_mem {signature : Signature} {count : Nat} {position : Position}
    {fault : Fault} (h : fault ∈ arityFaults signature count position) :
    (Diagnostic.ofFault fault).isAboutArity = true ∧ fault.cause.severity = .error := by
  have hcause : (∃ n, fault.cause = .tooFewArguments n count) ∨
      ∃ n, fault.cause = .tooManyArguments n count := by
    rw [arityFaults] at h
    cases hmax : signature.maxCount <;> rw [hmax] at h <;> grind
  rcases hcause with ⟨n, hcause⟩ | ⟨n, hcause⟩ <;>
    simp [Diagnostic.isAboutArity, Diagnostic.ofFault, hcause, Cause.label, Cause.severity]

/-- Nothing else in a call is reported about the number of arguments. -/
lemma arityAccepted_iff {signature : Signature} {args : List Facts} {position : Position}
    {s : State} : ArityAccepted signature args position s ↔
      signature.requiredCount ≤ args.length ∧ ∀ most ∈ signature.maxCount, args.length ≤ most := by
  obtain ⟨faults, hfaults, hrun⟩ := checkedCall_eq signature args position
    { s with log := { s.log with entries := [] } }
  rw [ArityAccepted, reportsOf, hrun]
  refine Iff.trans ?_ (arityFaults_eq_nil_iff : arityFaults signature args.length position = [] ↔ _)
  constructor
  · intro h
    rw [List.eq_nil_iff_forall_not_mem]
    intro fault hfault
    obtain ⟨habout, hsevere⟩ := isAboutArity_of_mem hfault
    obtain ⟨before, after, hsplit⟩ := List.append_of_mem hfault
    have hlogged : .ofFault fault ∈ ((arityFaults signature args.length position ++ faults).foldl
        Log.addFault { s.log with entries := [] }).entries := by
      rw [hsplit, List.append_assoc, List.foldl_append, List.cons_append, List.foldl_cons]
      exact (entries_prefix_foldl_addFault _ _).subset (Log.ofFault_mem_addFault _ hsevere)
    rw [h _ hlogged] at habout
    cases habout
  · intro h d hd
    rw [h, List.nil_append] at hd
    obtain hd | ⟨fault, hfault, rfl⟩ := mem_foldl_addFault hd
    · cases hd
    · have hmismatch := hfaults fault hfault
      obtain ⟨cause, p⟩ := fault
      cases cause <;> first | rfl | cases hmismatch

end Check

/-! ### Required parameters -/

/-- The parameters are required ones, followed by optional ones. -/
def Signature.RequiredFirst (signature : Signature) : Prop :=
  ∃ required optional, signature.params = required ++ optional ∧
    (∀ param ∈ required, param.isOptional = false) ∧ ∀ param ∈ optional, param.isOptional = true

lemma Signature.requiredFirst_iff {signature : Signature} : signature.RequiredFirst ↔
    ∀ i param, signature.params[i]? = some param → param.isOptional = false →
      i < signature.requiredCount := by
  rw [requiredCount]
  constructor
  · rintro ⟨required, optional, hparams, hrequired, hoptional⟩ i param hi hparam
    have hcount : required.countP (!·.isOptional) = required.length :=
      List.countP_eq_length.mpr fun param h => by simp [hrequired param h]
    rw [hparams, List.countP_append, hcount]
    by_contra hge
    rw [hparams, List.getElem?_append_right (by omega)] at hi
    rw [hoptional param (List.mem_of_getElem? hi)] at hparam
    cases hparam
  · intro h
    generalize hcount : signature.params.countP (!·.isOptional) = count at h
    have hdrop : ∀ param ∈ signature.params.drop count, param.isOptional = true := by
      intro param hmem
      obtain ⟨j, hj⟩ := List.mem_iff_getElem?.mp hmem
      rw [List.getElem?_drop] at hj
      by_contra hparam
      have := h (count + j) param hj (by simpa using hparam)
      omega
    refine ⟨_, _, (List.take_append_drop count _).symm, ?_, hdrop⟩
    -- all the required ones are among the first, and these are no more
    have hnone : (signature.params.drop count).countP (!·.isOptional) = 0 :=
      List.countP_eq_zero.mpr fun param h => by simp [hdrop param h]
    have hle : count ≤ signature.params.length := hcount ▸ List.countP_le_length
    rw [← List.take_append_drop count signature.params, List.countP_append, hnone] at hcount
    intro param hmem
    have hall := List.countP_eq_length.mp (hcount.trans (List.length_take_of_le hle).symm)
    simpa using hall param hmem

/-- **Accepted calls bind the required parameters if these come first.** A call that is not
reported for the number of its arguments has one for every required parameter, whatever the
arguments, exactly if the signature has no optional parameter before a required one. Every argument
of such a call is matched against a parameter, unless the signature takes any number of them. -/
theorem accepted_calls_bind_iff (signature : Signature) :
    ((∀ args position s, Check.ArityAccepted signature args position s →
      ∀ i param, signature.params[i]? = some param → param.isOptional = false → i < args.length) ↔
        signature.RequiredFirst) ∧
    ∀ args position s, Check.ArityAccepted signature args position s →
      ∀ i < args.length, (signature.parameterAt i).isSome = true ∨ signature.isVariadic = true := by
  simp only [Check.arityAccepted_iff]
  refine ⟨⟨fun h => ?_, fun h args _ _ hargs i param hi hparam => ?_⟩,
    fun args _ _ hargs i hi => ?_⟩
  · rw [Signature.requiredFirst_iff]
    intro i param hi hparam
    -- a call with as many arguments as there are required parameters
    let args : List Facts := List.replicate signature.requiredCount default
    have hlength : args.length = signature.requiredCount := List.length_replicate
    rw [← hlength]
    refine h args default default ⟨hlength.ge, fun most hmost => ?_⟩ i param hi hparam
    rw [Signature.maxCount] at hmost
    split_ifs at hmost
    · cases hmost
    · obtain rfl := Option.some.inj hmost
      exact hlength.trans_le List.countP_le_length
  · exact (Signature.requiredFirst_iff.mp h i param hi hparam).trans_le hargs.1
  · cases hvariadic : signature.isVariadic with
    | true => exact .inr rfl
    | false =>
        have hlt := hi.trans_le (hargs.2 _ (by rw [Signature.maxCount, hvariadic]; rfl))
        rw [Signature.parameterAt, List.getElem?_eq_getElem hlt]
        exact .inl rfl

/-- A signature with an optional parameter before a required one. -/
def optionalFirst : Signature where
  params := [{ name := "a", type := .int, isOptional := true }, { name := "b", type := .mixed }]

/-- A call with one argument is not reported, although there is none for the second parameter; nor
is it in a source. -/
theorem one_argument_is_accepted :
    Check.reportsOf
      (Check.checkedCall optionalFirst [{ type := .int, position := default }] default) default =
        [] ∧
    (optionalFirst.params[1]?.map (·.isOptional)) = some false ∧
    (checkSource "function f($a = 1, $b) \x7b \x7d f(5);" "main" {}).entries = [] := by
  decide +kernel

end ScriptCheck
