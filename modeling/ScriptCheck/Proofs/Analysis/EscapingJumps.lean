import ScriptCheck.Proofs.Analysis.Frames
import ScriptCheck.Proofs.Analysis.Termination
import ScriptCheck.Proofs.Flow.Confined
import ScriptCheck.Proofs.Flow.Levels

/-!
Jumps that come out of a routine or a file.

A jump that leaves more constructs than there are is reported where it is read, so one would expect
no jump to be left over where nothing is reported. It holds of breaks, and of continues in loops. A
switch counts as a construct where a plain continue is read, but passes it on to the outside, where
there may be no loop (`LetsContinueOut`).

A `Part` is the reading of a body or a file up to its end. It `IsQuiet` if the log at the end reports
no jump of it. Whatever is reported on the way is still in the log at the end, so that in the frame of
a quiet part (`Part.frame`) no jump is cut down. Every statement then gives exits that the part
`Confines`.
-/

namespace ScriptCheck

namespace Check

variable {α : Type} {s s' s'' : State}

/-- The second state is reached from the first by reading on. -/
structure Follows (s s' : State) : Prop where
  proper : s'.cursor.IsProper
  onward : s.cursor.Onward s'.cursor
  log : s.log.entries <+: s'.log.entries

lemma Follows.refl (hs : s.cursor.IsProper) : Follows s s :=
  ⟨hs, .refl _, List.prefix_refl _⟩

lemma Follows.trans (h : Follows s s') (h' : Follows s' s'') : Follows s s'' :=
  ⟨h'.proper, h.onward.trans h'.onward, h.log.trans h'.log⟩

lemma Effects.follows (h : Effects .statement s s') (hs : s.cursor.IsProper) : Follows s s' := by
  obtain ⟨honward, hs'⟩ := h.onward nofun hs
  obtain ⟨faults, hlog⟩ := h.log_eq
  exact ⟨hs', honward, hlog ▸ entries_prefix_foldl_addFault faults s.log⟩

lemma lt_of_require {kind : Kind} {token : Token} (hrun : require kind s = .ok token s')
    (hkind : kind ≠ .eof) : s.cursor.index < s'.cursor.index := by
  obtain ⟨hhere, rfl⟩ := require_ok hrun
  exact Cursor.lt_advance_index (hhere ▸ hkind)

/-- The result of a run, if it gives one. -/
def result? : EStateM.Result Halt State α → Option α
  | .ok a _ => some a
  | .error _ _ => none

lemma exists_of_result? {run : EStateM.Result Halt State α} {a : α} (h : result? run = some a) :
    ∃ t, run = .ok a t := by
  cases run with
  | ok b t =>
      cases h
      exact ⟨t, rfl⟩
  | error e t => cases h

/-- At the state a switch is read that is in no loop, and a plain continue comes out of it. -/
structure LetsContinueOut (t : State) : Prop where
  isSwitch : t.cursor.kind = .kwSwitch
  outside : t.loopDepth = 0
  comesOut : ∃ depth exits t', switchStatement (stmtWithin depth) t = .ok exits t' ∧
    exits.mayContinue = true

end Check

/-- A part of an analysis: the reading of a routine or file from a token on, up to a state. -/
structure Part where
  start : Nat
  routine : Option Routine
  final : State

namespace Part

open Check

/-- In the part a switch lets a continue out. -/
def Leaks (p : Part) : Prop :=
  ∃ t, LetsContinueOut t ∧ t.routine = p.routine ∧ t.cursor.tokens = p.final.cursor.tokens ∧
    p.start ≤ t.cursor.index ∧ t.cursor.index < p.final.cursor.index

/-- No jump of the part is reported to be outside of a loop. -/
def IsQuiet (p : Part) : Prop :=
  ∀ d ∈ p.final.log.entries, d.label = some "OutsideLoop" →
    ∀ (i : Nat) (token : Token), p.final.cursor.tokens[i]? = some token →
      d.position = ⟨token.start, p.final.cursor.file⟩ →
        i < p.start ∨ p.final.cursor.index ≤ i

/-- Inside so many constructs no break leaves more than these, nor does a continue, unless it comes
out of a switch. -/
def Confines (p : Part) (depth : Nat) : Exits → Prop :=
  Exits.Confined (· ≤ depth) fun level => level ≤ depth ∨ depth = 0 ∧ level = 1 ∧ p.Leaks

/-- The state is one of the part, inside so many constructs. -/
structure Has (p : Part) (depth : Nat) (s : State) : Prop where
  proper : s.cursor.IsProper
  loopDepth : s.loopDepth = depth
  routine : s.routine = p.routine
  reached : p.start ≤ s.cursor.index

variable {p : Part} {depth : Nat}

/-- The states of the part, from which it goes on to its end. -/
def frame (p : Part) : Frame where
  Has := p.Has
  GoesOn s := Follows s p.final
  has hs h :=
    { proper := (h.follows hs.proper).proper
      loopDepth := h.context.loopDepth.trans hs.loopDepth
      routine := h.context.routine.trans hs.routine
      reached := hs.reached.trans (h.follows hs.proper).onward.le }
  goesOn hs h hend := (h.follows hs.proper).trans hend
  inLoop hs := { hs with loopDepth := congrArg (· + 1) hs.loopDepth }
  outside h := ⟨h.proper, h.onward, h.log⟩

/-! ### Jumps and switches -/

/-- A jump that leaves more constructs than there are would be reported. -/
lemma confines_of_jump {exits : Nat → Exits} (hquiet : p.IsQuiet)
    (hexits : ∀ {level depth : Nat}, 1 ≤ level → level ≤ depth →
      (exits level).Confined (· ≤ depth) (· ≤ depth)) (depth : Nat) :
    p.frame.Gives depth (p.Confines depth) (jump exits) := by
  refine ⟨composed_jump, fun s result s' hs hrun hend => ?_⟩
  obtain ⟨level, hpos, rfl, u, token, t, shown, hlead, hclose, rfl⟩ := exists_of_jump hrun
  have hu := hlead.follows hs.proper
  have ht := hu.trans ((composed_require.effects_of_ok hclose).follows hu.proper)
  have hmoved : s.cursor.index < t.cursor.index :=
    hu.onward.le.trans_lt (lt_of_require hclose nofun)
  rw [hs.loopDepth] at hend ⊢
  split at hend
  case isTrue =>
    -- the report stands in the log at a token of the part
    have hreported := hend.log.subset (Log.ofFault_mem_addFault _ rfl)
    have htoken : p.final.cursor.tokens[s.cursor.index]? = some s.cursor.current := by
      rw [hend.onward.tokens, ht.onward.tokens, Cursor.current_eq hs.proper.inside]
      exact Array.getElem?_eq_getElem hs.proper.inside
    have hplace := hquiet _ hreported rfl _ _ htoken (congrArg _ hend.onward.file.symm)
    have hle := hend.onward.le
    have hreached := hs.reached
    dsimp only at hle
    omega
  case isFalse hle =>
    have hlevel : 1 ≤ min level (max depth 1) := by omega
    obtain ⟨hbreaks, hcontinues⟩ := hexits hlevel (show _ ≤ depth by omega)
    exact ⟨hbreaks, fun k hk => Or.inl (hcontinues k hk)⟩

lemma confined_breaking {level depth : Nat} (hpos : 1 ≤ level) (hle : level ≤ depth) :
    (Exits.breaking level).Confined (· ≤ depth) (· ≤ depth) where
  breaks k hk := by
    simp only [Exits.breaking, NatSet.mem_ofList, List.mem_singleton] at hk
    omega
  continues := by simp [Exits.breaking]

lemma confined_continuing {level depth : Nat} (hpos : 1 ≤ level) (hle : level ≤ depth) :
    (Exits.continuing level).Confined (· ≤ depth) (· ≤ depth) where
  breaks := by simp [Exits.continuing]
  continues k hk := by
    simp only [Exits.continuing, NatSet.mem_ofList, List.mem_singleton] at hk
    omega

/-- A loop stops the jumps that leave it alone. -/
lemma law_confines : Exits.Law p.Confines where
  passing := Exits.confined_passing
  stopping := Exits.confined_of_no_jumps rfl rfl
  alsoRaising classes h := Exits.Confined.alsoRaising h classes
  andThen ha hb := Exits.Confined.andThen ha hb
  oneOf h := Exits.confined_oneOf h
  loop truth h := Exits.confined_loop (fun _ _ => by omega) (fun _ _ => by omega) h truth
  doWhile truth h := Exits.confined_doWhile (fun _ _ => by omega) (fun _ _ => by omega) h truth
  guarded _ hbody hclauses hlast := Exits.confined_guarded hbody hclauses hlast

/-- Outside of any construct a switch lets plain continues out. -/
lemma confines_of_switchStatement {bound : Nat}
    (hstmt : p.frame.Gives (depth + 1) (p.Confines (depth + 1)) (stmtWithin bound)) :
    p.frame.Gives depth (p.Confines depth) (switchStatement (stmtWithin bound)) := by
  -- the jumps that come out leave more than the switch, apart from plain continues
  have hswitch : p.frame.Gives depth
      (Exits.Confined (· ≤ depth) fun level => level ≤ depth ∨ level = 1)
      (switchStatement (stmtWithin bound)) :=
    Frame.gives_switchStatement law_confines hstmt fun bodies hasDefault classes hbodies =>
      (Exits.confined_switch (fun _ _ => by omega) (fun _ _ => by omega) (fun _ => Or.inr rfl)
        hbodies _).alsoRaising _
  refine ⟨hswitch.composed, fun s exits s' hs hrun hend => ?_⟩
  obtain ⟨hbreaks, hcontinues⟩ := hswitch.result s exits s' hs hrun hend
  refine ⟨hbreaks, fun level hmem => ?_⟩
  rcases hcontinues level hmem with hle | rfl
  · exact Or.inl hle
  · rcases depth.eq_zero_or_pos with rfl | hpos
    · obtain ⟨token, t, hopen, hrest⟩ := exists_of_bind hrun
      have hlater : Effects .statement t s' := by
        refine Composed.effects_of_ok ?_ hrest
        have hcomposed := hstmt.composed
        grind
      have ht := (composed_require.effects_of_ok hopen).follows hs.proper
      have hend := (hlater.follows ht.proper).trans hend
      exact Or.inr ⟨rfl, rfl, s, ⟨(require_ok hopen).1, hs.loopDepth, bound, exits, s', hrun,
        decide_eq_true hmem⟩, hs.routine, (hend.onward.tokens.trans ht.onward.tokens).symm, hs.reached,
        (lt_of_require hopen nofun).trans_le hend.onward.le⟩
    · exact Or.inl hpos

/-! ### All statements -/

lemma confines_of_stmtWithin (hquiet : p.IsQuiet) (bound depth : Nat) :
    p.frame.Gives depth (p.Confines depth) (stmtWithin bound) :=
  Frame.gives_stmtWithin law_confines (confines_of_jump hquiet confined_breaking)
    (confines_of_jump hquiet confined_continuing) (fun _ _ => confines_of_switchStatement) bound depth

/-- Outside of any construct, no break is left over, and no continue but one from a switch. -/
lemma Confines.jumps {exits : Exits} (h : p.Confines 0 exits) :
    exits.mayBreak = false ∧ exits.jumps = [] ∧ (exits.mayContinue = true → p.Leaks) := by
  refine ⟨decide_eq_false fun hmem => ?_, ?_, fun hmay => ?_⟩
  · exact absurd (h.breaks 1 hmem) (by omega)
  · rw [List.eq_nil_iff_forall_not_mem]
    intro level hlevel
    obtain ⟨hmem | hmem, htwo⟩ := Exits.mem_jumps.mp hlevel
    · have hle := h.breaks level hmem
      omega
    · have hle := h.continues level hmem
      omega
  · rcases h.continues 1 (of_decide_eq_true hmay) with hle | ⟨-, -, hleaks⟩
    · omega
    · exact hleaks

end Part

open Check

/-- A block with a switch from which a continue is the only way on. -/
def continuedSwitch : State :=
  { cursor := {
      file := "main"
      tokens := #[⟨.openCurly, "\x7b", 0, 1⟩, ⟨.kwSwitch, "switch", 2, 8⟩, ⟨.openParen, "(", 9, 10⟩,
        ⟨.number, "1", 10, 11⟩, ⟨.closeParen, ")", 11, 12⟩, ⟨.openCurly, "\x7b", 13, 14⟩,
        ⟨.kwCase, "case", 15, 19⟩, ⟨.number, "1", 20, 21⟩, ⟨.colon, ":", 21, 22⟩,
        ⟨.kwContinue, "continue", 23, 31⟩, ⟨.semicolon, ";", 31, 32⟩,
        ⟨.kwDefault, "default", 33, 40⟩, ⟨.colon, ":", 40, 41⟩, ⟨.kwExit, "exit", 42, 46⟩,
        ⟨.semicolon, ";", 46, 47⟩, ⟨.closeCurly, "\x7d", 48, 49⟩, ⟨.closeCurly, "\x7d", 50, 51⟩,
        ⟨.eof, "", 51, 51⟩] } }

/-- The routine whose body the block is. -/
def continuedRoutine : Routine := { name := "f", signature := default }

/-- The reading of the block as a body. -/
def continuedBody : EStateM.Result Halt State Exits :=
  inRoutine continuedRoutine (setParams false [] >>= fun _ => block (stmtWithin 9)) continuedSwitch

lemma isQuiet_of_entries_eq_nil {p : Part} (h : p.final.log.entries = []) : p.IsQuiet := by
  intro d hd
  rw [h] at hd
  cases hd

/-- The exits of the statements of a source, if it has tokens. -/
def sourceExits? (source file : String) (options : Options) : Option Exits :=
  match scan file source.toList with
  | .error _ => none
  | .ok tokens => result? (program (State.start file tokens options))

end ScriptCheck
