import ScriptCheck.Proofs.Layout.Agreement

/-!
How the table of classes grows along an analysis.

Every step of an analysis goes up in the order on tables of classes (`growthLaw`). So what a reader
has left in the table is known in all the tables that follow, and a member that is reported as unknown
was so in some table on the way.
-/

namespace ScriptCheck

/-! ### Reports of unknown members -/

lemma mem_addFault {log : Log} {fault : Fault} {d : Diagnostic}
    (h : d ∈ (log.addFault fault).entries) : d ∈ log.entries ∨ d = .ofFault fault := by
  rw [Log.addFault, Log.add] at h
  split at h
  · exact .inl h
  · simpa using h

lemma label_ofFault_ne {cause : Cause} (h : cause.isUnknownMember = false) (p : Position) :
    (Diagnostic.ofFault ⟨cause, p⟩).label ≠ some "UnknownMember" := by
  cases cause <;> simp_all [Diagnostic.ofFault, Cause.label, Cause.isUnknownMember]

/-- A report of an unknown member is about a use of the member in some tokens. When it was made, the
table was between the two given ones. -/
def IsAboutUse (file : String) (tokens : Array Token) (before now : ClassTable) (d : Diagnostic) :
    Prop :=
  ∃ t id isMissing shown p, before.Grows t ∧ t.Grows now ∧
    MemberUse file tokens isMissing shown p ∧ isMissing t id ∧
    d = .ofFault ⟨.unknownMember (t.nameOf id) shown, p⟩

/-- Since some moment, with a table and some reports, the table of classes has only grown, and every
unknown member that was reported since then is used in the tokens. -/
structure GrownSince (file : String) (tokens : Array Token) (before : ClassTable)
    (known : List Diagnostic) (log : Log) (env : Env) : Prop where
  grows : before.Grows env.classes
  reports : ∀ d ∈ log.entries, d ∈ known ∨ d.label ≠ some "UnknownMember" ∨
    IsAboutUse file tokens before env.classes d

namespace GrownSince

variable {file : String} {tokens : Array Token} {before : ClassTable} {known : List Diagnostic}
  {log : Log} {env env' : Env}

lemma grow (h : GrownSince file tokens before known log env)
    (hgrows : env.classes.Grows env'.classes) :
    GrownSince file tokens before known log env' where
  grows := h.grows.trans hgrows
  reports d hd := by
    obtain hknown | hlabel | ⟨t, id, isMissing, shown, p, hbefore, hnow, huse⟩ := h.reports d hd
    · exact .inl hknown
    · exact .inr (.inl hlabel)
    · exact .inr (.inr ⟨t, id, isMissing, shown, p, hbefore, hnow.trans hgrows, huse⟩)

lemma report (h : GrownSince file tokens before known log env) {fault : Fault}
    (hfault : (Diagnostic.ofFault fault).label ≠ some "UnknownMember" ∨
      IsAboutUse file tokens before env.classes (.ofFault fault)) :
    GrownSince file tokens before known (log.addFault fault) env where
  grows := h.grows
  reports d hd := by
    obtain hd | rfl := mem_addFault hd
    · exact h.reports d hd
    · exact .inr hfault

end GrownSince

/-- The table of classes grows, and unknown members are reported where they are used. -/
def growthLaw (file : String) (tokens : Array Token) (before : ClassTable)
    (known : List Diagnostic) : (Relocation.stay file tokens).Law where
  Holds log _ env := GrownSince file tokens before known log env
  Fresh _ := True
  report _ p h hcause := h.report (.inl (label_ofFault_ne hcause p))
  unknownMember id h huse hmissing := h.report (.inr
    ⟨_, id, _, _, _, h.grows, .refl _, huse, hmissing, rfl⟩)
  compile _ h := h
  addFunction f h := by
    refine h.grow ?_
    rw [Env.addFunction]
    split
    · exact .refl _
    · exact .refl _
  addConstant name type h := by
    refine h.grow ?_
    rw [Env.addConstant]
    split
    · exact .refl _
    · exact .refl _
  addClass _ h _ := h.grow (ClassTable.Grows.add (.refl _) _)
  declare _ _ _ _ _ _ h hundeclared _ :=
    ⟨trivial, h.grow (.declare (.refl _) _ _ _ _ _ _ _ hundeclared)⟩
  addMember h _ hg := h.grow (.addMember (.refl _) _ hg)
  placed _ _ _ := rfl

/-- A computation that keeps every law keeps the law of growth from its own start on, however it
ends. -/
lemma Check.fits_of_agree {α : Type} {m : Check α} {s : State} (hs : s.cursor.IsProper)
    (h : (growthLaw s.cursor.file s.cursor.tokens s.env.classes s.log.entries).Agree 0 Eq m m) :
    (growthLaw s.cursor.file s.cursor.tokens s.env.classes s.log.entries).Fits 0
      (endState (m s)) :=
  h.fits_endState
    { proper := hs
      tokens := rfl
      file := rfl
      reached := Nat.zero_le _
      holds := ⟨.refl _, fun _ hd => .inl hd⟩ }

lemma Check.grows_of_agree {α : Type} {m : Check α} {s : State} (hs : s.cursor.IsProper)
    (h : (growthLaw s.cursor.file s.cursor.tokens s.env.classes s.log.entries).Agree 0 Eq m m) :
    s.env.classes.Grows (endState (m s)).env.classes :=
  (fits_of_agree hs h).holds.grows

end ScriptCheck
