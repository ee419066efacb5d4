import SessionManager.Demo.Bash

/-! Whose output a call of the bash tool returns. -/

open transition

namespace session_manager.bash

variable {answer : Nat → List String → List UInt8} {late restart : Bool} {s t : State} {command : Option String}
  {process : Process} {outcome : Outcome}

/-- What may come before the answer of the next command: nothing, or the line break
after the last sentinel. -/
def Left (late : Bool) (left : List UInt8) : Prop := left = [] ∨ late = true ∧ left = [10]

/-- What the reader of a shell has before it, in its buffer and still to come, up
to the end of the transcript: the lines of the running command, if there is one. -/
def Unread (answer : List String → List UInt8) (late : Bool) (process : Process) (running : Option String) : Prop :=
  ∃ pending left, process.printed ++ pending = transcript answer process.written ∧ Left late left ∧
    match running with
    | none => process.stdout ++ pending = left
    | some command => (∃ before, process.written = command :: before) ∧
        process.stdout ++ pending = left ++ answer process.written ++ mark ++ [10]

/-- The output of a call is that of its own command. -/
def Returned.Own (answer : Nat → List String → List UInt8) (late : Bool) (r : Returned) : Prop :=
  ∀ output error, r.outcome = .CLIResult output error → ∃ command before text, r.command = some command ∧
    r.written = command :: before ∧ unicode.encode text = answer r.shell r.written ∧
    (output = strip text ∨ late = true ∧ output = strip ('\n' :: text))

structure Synced (answer : Nat → List String → List UInt8) (late : Bool) (s : State) : Prop where
  unread : ∀ session, s.session = some session → session.started = true → session.timed_out = false →
    Unread (answer s.shells) late session.process s.running
  running : s.running.isSome = true → ∃ session, s.session = some session ∧ session.started = true ∧
    session.timed_out = false
  returned : ∀ r ∈ s.returned, r.Own answer late

/-- Not a `CLIResult`. -/
def Outcome.silent : Outcome → Bool
  | .CLIResult .. => false
  | _ => true

namespace Synced

/-- Nothing is written and nothing is read before the first call, so there is nothing to
be out of step. -/
theorem initial : Synced answer late {} where
  unread := nofun
  running := nofun
  returned := nofun

/-- A new shell has printed nothing, and its buffers are empty, whether or not it
starts. -/
theorem start (h : Synced answer late s) (hidle : s.running = none) (starts : Bool) :
    Synced answer late (s.start starts) where
  unread session hsession hstarted _ := by
    cases starts with
    | true =>
      obtain rfl := Option.some.inj hsession
      rw [show (s.start true).running = none from hidle]
      exact ⟨[], [], rfl, .inl rfl, rfl⟩
    | false =>
      obtain rfl := Option.some.inj hsession
      cases hstarted
  running hrunning := by
    cases starts <;> rw [State.start, hidle] at hrunning <;> cases hrunning
  returned := by cases starts <;> exact h.returned

/-- A call that ends without output takes nothing from the buffers. -/
theorem returns (h : Synced answer late s) (hidle : s.running = none) (hsilent : outcome.silent = true) :
    Synced answer late (s.returns command outcome) where
  unread session hsession hstarted htimed_out := by
    have hunread := h.unread session hsession hstarted htimed_out
    rwa [hidle] at hunread
  running := nofun
  returned r hr := by
    rcases List.mem_cons.mp hr with rfl | hr
    · intro output error houtcome
      rw [show outcome = .CLIResult output error from houtcome] at hsilent
      cases hsilent
    · exact h.returned r hr

/-- Writing a command starts what its poll will look for: the output of the command and
the sentinel behind it. -/
theorem write {session : _BashSession} {command : String} (h : Synced answer late s) (hidle : s.running = none)
    (hsession : s.session = some session) (hstarted : session.started = true) (htimed_out : session.timed_out = false) :
    Synced answer late { s.update session (fun process => { process with written := command :: process.written }) with
      running := some command } where
  unread session' hsession' _ _ := by
    obtain rfl := Option.some.inj hsession'
    obtain ⟨pending, left, hprinted, hleft, hstdout⟩ := h.unread session hsession hstarted htimed_out
    rw [hidle] at hstdout
    refine ⟨pending ++ answer s.shells (command :: session.process.written) ++ mark ++ [10], left, ?_, hleft,
      ⟨_, rfl⟩, ?_⟩
    · change _ = transcript (answer s.shells) (command :: session.process.written)
      rw [transcript, ← hprinted]
      simp only [List.append_assoc]
    · change session.process.stdout ++ _ = left ++ answer s.shells (command :: session.process.written) ++ mark ++ [10]
      rw [← hstdout]
      simp only [List.append_assoc]
  running _ := ⟨_, rfl, hstarted, htimed_out⟩
  returned := h.returned

/-- A call of `run` writes its command to a shell that has started and has not timed
out, and raises at any other. -/
theorem run {session : _BashSession} {command : String} (h : Synced answer late s) (hidle : s.running = none)
    (hsession : s.session = some session) : Synced answer late (session.run s command) := by
  unfold _BashSession.run
  split
  · exact h.returns hidle rfl
  · rename_i hstarted
    split
    · exact h.returns hidle rfl
    · split
      · exact h.returns hidle rfl
      · rename_i htimed_out
        exact h.write hidle hsession (by simpa using hstarted) (by simpa using htimed_out)

/-- A call of the tool keeps shell and buffers in step; it may start or restart the
shell before it writes. -/
theorem call (h : Synced answer late s) (hidle : s.running = none) (command : Option String) (restart starts : Bool) :
    Synced answer late (call s command restart starts) := by
  have hstart := h.start hidle starts
  have hstart_idle : (s.start starts).running = none := by cases starts <;> exact hidle
  unfold bash.call
  split
  · split
    · exact h.returns hidle rfl
    · exact hstart.returns hstart_idle (by cases starts <;> rfl)
  · obtain ⟨s', hs', hsynced, hidle'⟩ : ∃ s', s' = (if s.session.isNone then s.start starts else s) ∧
        Synced answer late s' ∧ s'.running = none := by
      refine ⟨_, rfl, ?_⟩
      split
      · exact ⟨hstart, hstart_idle⟩
      · exact ⟨h, hidle⟩
    rw [← hs']
    dsimp only
    split
    · exact hsynced.returns hidle' rfl
    · split
      · rename_i session _ hsession
        exact hsynced.run hidle' hsession
      · exact hsynced.returns hidle' rfl

end Synced

private theorem mark_borderless : pieces.Borderless mark := by decide

private theorem sentinel_ne_nil : sentinel ≠ [] := by decide

/-- A sentinel that a poll finds is the one after the command's answer. -/
private theorem sentinel_found {answer left pending : List UInt8} {before after : List Char}
    (habsent : ¬ mark <:+: answer) (hleft : Left late left)
    (h : unicode.encode (before ++ sentinel ++ after) ++ pending = left ++ answer ++ mark ++ [10]) :
    unicode.encode before = left ++ answer ∧ unicode.encode after ++ pending = [10] := by
  have hbefore : ¬ mark <:+: left ++ answer := by
    rcases hleft with rfl | ⟨-, rfl⟩
    · exact habsent
    · rw [List.singleton_append, List.infix_cons_iff, not_or]
      refine ⟨fun hstart => ?_, habsent⟩
      obtain ⟨rest, hrest⟩ := hstart
      have hmark : mark = 60 :: mark.tail := by decide
      rw [hmark, List.cons_append, List.cons.injEq] at hrest
      exact absurd hrest.1 (by decide)
  rw [unicode.encode_append, unicode.encode_append, ← mark, List.append_assoc] at h
  exact mark_borderless.unique hbefore (by decide) h.symm

/-- The text behind the line break that has come late. -/
private theorem own_text {answer left : List UInt8} {text : List Char} (hleft : Left late left)
    (htext : unicode.encode text = left ++ answer) : ∃ own, unicode.encode own = answer ∧
      (strip text = strip own ∨ late = true ∧ strip text = strip ('\n' :: own)) := by
  rcases hleft with rfl | ⟨hlate, rfl⟩
  · exact ⟨text, htext, .inl rfl⟩
  · obtain ⟨own, rfl, hown⟩ := unicode.exists_tail (c := '\n') htext
    exact ⟨own, hown, .inr ⟨hlate, rfl⟩⟩

namespace Synced

/-- The poll that finds a sentinel takes all there is in the buffers, which is the
answer of its command and what is left of the one before. -/
theorem found {session : _BashSession} {command : String} {before after error : List Char}
    (hanswer : ∀ shell written, ¬ mark <:+: answer shell written) (h : Synced answer late s)
    (hrunning : s.running = some command) (hsession : s.session = some session)
    (hstarted : session.started = true) (htimed_out : session.timed_out = false)
    (hstdout : unicode.encode (before ++ sentinel ++ after) = session.process.stdout)
    (hlate : late = true ∨ ¬ mark <:+ session.process.stdout) :
    Synced answer late ((s.update session fun process => { process with stdout := [], stderr := [] }).returns command
      (.CLIResult (strip before) error)) := by
  obtain ⟨pending, left, hprinted, hleft, hread⟩ := h.unread session hsession hstarted htimed_out
  rw [hrunning, ← hstdout] at hread
  obtain ⟨⟨written, hwritten⟩, hread⟩ := hread
  obtain ⟨hbefore, hafter⟩ := sentinel_found (hanswer _ _) hleft hread
  have hpending : Left late pending := by
    cases pending with
    | nil => exact .inl rfl
    | cons b pending =>
      have hlength := congrArg List.length hafter
      rw [List.length_append, List.length_cons, List.length_singleton] at hlength
      have hnone : unicode.encode after = [] := List.eq_nil_of_length_eq_zero (by omega)
      rw [hnone, List.nil_append] at hafter
      refine .inr ⟨hlate.resolve_right fun hends => hends ?_, hafter⟩
      rw [← hstdout, unicode.encode_append, hnone, List.append_nil, unicode.encode_append]
      exact List.suffix_append _ _
  exact {
    unread := fun session' hsession' _ _ => by
      obtain rfl := Option.some.inj hsession'
      exact ⟨pending, pending, hprinted, hpending, rfl⟩
    running := nofun
    returned := fun r hr => by
      rcases List.mem_cons.mp hr with rfl | hr
      · intro output error' houtcome
        obtain ⟨rfl, rfl⟩ := Outcome.CLIResult.inj houtcome
        obtain ⟨own, hown, hstrip⟩ := own_text hleft hbefore
        exact ⟨command, written, own, rfl, hwritten, hown, hstrip⟩
      · exact h.returned r hr }

/-- A poll takes what it has found with the sentinel, or leaves the buffers as they are
and waits. -/
theorem poll {session : _BashSession} {command : String} (hanswer : ∀ shell written, ¬ mark <:+: answer shell written)
    (h : Synced answer late s) (horderly : Orderly late s .poll) (hrunning : s.running = some command)
    (hsession : s.session = some session) : Synced answer late (poll s command session) := by
  obtain ⟨hstdout, hstderr, hlate⟩ := horderly session hsession
  obtain ⟨session', hsession', hstarted, htimed_out⟩ := h.running (by rw [hrunning]; rfl)
  obtain rfl : session = session' := Option.some.inj (hsession.symm.trans hsession')
  obtain ⟨output, houtput⟩ := Option.isSome_iff_exists.mp hstdout
  obtain ⟨error, herror⟩ := Option.isSome_iff_exists.mp hstderr
  unfold bash.poll
  rw [houtput, herror]
  dsimp only
  split
  · rename_i hoccurs
    obtain ⟨before, after, rfl, hfirst⟩ := pieces.exists_first sentinel_ne_nil hoccurs
    rw [pieces.split_first sentinel_ne_nil hfirst]
    exact h.found hanswer hrunning hsession hstarted htimed_out (unicode.decode?_eq_some_iff.mp houtput) hlate
  · exact h

/-- A shell that has timed out is not written to any more, nor read, so its buffers no
longer matter. -/
theorem deadline (h : Synced answer late s) (session : _BashSession) (command : String) :
    Synced answer late ({ s with session := some { session with timed_out := true } }.returns command
      (.ToolError timeout_message)) where
  unread session' hsession' _ htimed_out := by
    obtain rfl := Option.some.inj hsession'
    cases htimed_out
  running := nofun
  returned r hr := by
    rcases List.mem_cons.mp hr with rfl | hr
    · exact nofun
    · exact h.returned r hr

/-- A change of the process that the tool does not see yet, such as output on its way. -/
theorem update {session : _BashSession} {f : Process → Process} (h : Synced answer late s)
    (hsession : s.session = some session) (hstarted : session.started = true)
    (hf : ∀ running, Unread (answer s.shells) late session.process running →
      Unread (answer s.shells) late (f session.process) running) :
    Synced answer late (s.update session f) where
  unread session' hsession' _ htimed_out := by
    obtain rfl := Option.some.inj hsession'
    exact hf _ (h.unread session hsession hstarted htimed_out)
  running hrunning := by
    obtain ⟨session', hsession', -, htimed_out⟩ := h.running hrunning
    obtain rfl : session = session' := Option.some.inj (hsession.symm.trans hsession')
    exact ⟨_, rfl, hstarted, htimed_out⟩
  returned := h.returned

end Synced

/-- What the output delivers moves from what is to come into the buffer, so the two
together stay the transcript. -/
theorem Unread.deliver {answer : List String → List UInt8} {running : Option String} {bytes : List UInt8}
    (hdelivers : process.printed ++ bytes <+: transcript answer process.written)
    (h : Unread answer late process running) :
    Unread answer late { process with printed := process.printed ++ bytes, stdout := process.stdout ++ bytes }
      running := by
  obtain ⟨pending, left, hprinted, hleft, hread⟩ := h
  obtain ⟨rest, hrest⟩ := hdelivers
  obtain rfl : bytes ++ rest = pending := by
    rw [← hprinted, List.append_assoc] at hrest
    exact List.append_cancel_left hrest
  refine ⟨rest, left, hrest, hleft, ?_⟩
  cases running <;> simpa only [List.append_assoc] using hread

/-- Every step keeps the tool and its shells in step, however the output is cut into
pieces. -/
theorem Synced.step {l : Label} (hanswer : ∀ shell written, ¬ mark <:+: answer shell written)
    (h : Synced answer late s) (horderly : Orderly late s l) (hstep : step answer s l = some t) :
    Synced answer late t := by
  cases l with
  | call command restart starts =>
    simp only [bash.step, Option.ite_none_right_eq_some, Option.some.injEq, Option.isNone_iff_eq_none] at hstep
    obtain ⟨hidle, rfl⟩ := hstep
    exact h.call hidle command restart starts
  | poll =>
    simp only [bash.step] at hstep
    split at hstep
    · rename_i command session hrunning hsession
      obtain rfl := Option.some.inj hstep
      exact h.poll hanswer horderly hrunning hsession
    · cases hstep
  | deadline =>
    simp only [bash.step] at hstep
    split at hstep
    · obtain rfl := Option.some.inj hstep
      exact h.deadline _ _
    · cases hstep
  | stdout bytes =>
    obtain ⟨session, hsession, hstep⟩ := Option.bind_eq_some_iff.mp hstep
    obtain ⟨hsession, hstarted⟩ := Option.filter_eq_some_iff.mp hsession
    simp only [Option.ite_none_right_eq_some, Option.some.injEq] at hstep
    obtain ⟨hdelivers, rfl⟩ := hstep
    exact h.update hsession hstarted fun _ => Unread.deliver hdelivers
  | stderr bytes =>
    obtain ⟨session, hsession, rfl⟩ := Option.map_eq_some_iff.mp hstep
    obtain ⟨hsession, hstarted⟩ := Option.filter_eq_some_iff.mp hsession
    exact h.update hsession hstarted fun _ hunread => hunread
  | exit returncode =>
    obtain ⟨session, hsession, rfl⟩ := Option.map_eq_some_iff.mp hstep
    obtain ⟨hsession, hstarted⟩ := Option.filter_eq_some_iff.mp hsession
    exact h.update hsession hstarted fun _ hunread => hunread

private theorem Synced.of_run (hanswer : ∀ shell written, ¬ mark <:+: answer shell written)
    (hrun : Run (bash.step answer) (Orderly late) {} s) : Synced answer late s :=
  hrun.invariant (fun _ _ _ h horderly hstep => h.step hanswer horderly hstep) .initial

/-- Whatever is called, restarted, timed out and delivered in pieces of any size, an
output that a call returns is what its own command has printed, if no command
prints the sentinel. Only a line break that came late can stand before it. -/
theorem own_output (hanswer : ∀ shell written, ¬ mark <:+: answer shell written)
    (hrun : Run (step answer) (Orderly late) {} s) {r : Returned} (hr : r ∈ s.returned) {output error : List Char}
    (houtcome : r.outcome = .CLIResult output error) :
    ∃ command before text, r.command = some command ∧ r.written = command :: before ∧
      unicode.encode text = answer r.shell r.written ∧
      (output = strip text ∨ late = true ∧ output = strip ('\n' :: text)) := by
  have h := Synced.of_run hanswer hrun
  exact h.returned r hr output error houtcome

/-- What two commands print comes in pieces, and the second one's output is told
from the first one's. -/
theorem own_output_pieces : ∃ s, Run (step fun _ written => if written.length = 1 then [97, 10] else [98, 10, 10])
    (Orderly false) {} s ∧ ∃ r ∈ s.returned, r.command = some "second" ∧
      ∃ text, unicode.encode text = [98, 10, 10] ∧ r.outcome = .CLIResult (strip text) [] := by
  obtain ⟨s, hrun, r, hr, hcommand, hlength, hshown⟩ : ∃ s,
      Run (step fun _ written => if written.length = 1 then [97, 10] else [98, 10, 10]) (Orderly false) {} s ∧
        ∃ r ∈ s.returned, r.command = some "second" ∧ r.written.length = 2 ∧
          r.outcome = .CLIResult ['b', '\n'] [] := by
    refine Run.exists_of_execIf [.call (some "first") false true, .stdout [97], .poll, .stdout [10, 60, 60], .poll,
      .stdout ([101, 120, 105, 116, 62, 62] ++ [10]), .poll, .call (some "second") false true,
      .stdout ([98, 10, 10] ++ mark ++ [10]), .poll] _ (by decide +kernel)
  obtain ⟨command, before, text, -, hwritten, htext, houtput⟩ := own_output (by
    intro shell written
    split <;> decide) hrun hr hshown
  rw [if_neg (by omega)] at htext
  refine ⟨s, hrun, r, hr, hcommand, text, htext, ?_⟩
  rw [hshown, houtput.resolve_right fun h => by cases h.1]

/-- A line break after the sentinel that comes only after the poll stands before
the next output. -/
example : ((execIf (Orderly true) (step fun _ _ => [97]) [.call (some "first") false true,
      .stdout ([97] ++ mark), .poll, .stdout [10], .call (some "second") false true,
      .stdout ([97] ++ mark ++ [10]), .poll] {}).map fun s => s.returned.map Returned.outcome) =
    some [.CLIResult ['\n', 'a'] [], .CLIResult ['a'] []] := by decide +kernel

/-- The tool's shell could not be started. -/
def Unstarted (s : State) : Prop := s.running = none ∧ s.session = some { started := false }

/-- The call is one that starts a shell: the first of all, or a restart, unless
there is a shell that could not be started. -/
def State.starts_shell (s : State) (restart : Bool) : Bool :=
  if restart then !s.session.any (!·.started) else s.session.isNone

/-- Every call that tries to start a shell and fails leaves the tool without one that
has started. -/
theorem Unstarted.of_call (hstart : s.starts_shell restart = true)
    (hstep : step answer s (.call command restart false) = some t) : Unstarted t := by
  simp only [step, Option.ite_none_right_eq_some, Option.some.injEq] at hstep
  obtain ⟨-, rfl⟩ := hstep
  cases restart with
  | true =>
    have hsession : s.session.any (!·.started) = false := by simpa [State.starts_shell] using hstart
    rw [call, if_pos rfl, hsession]
    exact ⟨rfl, rfl⟩
  | false =>
    have hsession : s.session.isNone = true := hstart
    rw [call, if_neg Bool.false_ne_true, hsession]
    exact ⟨rfl, rfl⟩

/-- Once a shell could not be started, no call ever starts one or returns an output,
not even a restart. -/
theorem unstarted_forever (h : Unstarted s) (hrun : Run (step answer) (fun _ _ => True) s t) :
    Unstarted t ∧ t.shells = s.shells ∧ ∃ later, t.returned = later ++ s.returned ∧
      ∀ r ∈ later, ∃ message, r.outcome = .ToolError message := by
  refine hrun.invariant (I := fun t => Unstarted t ∧ t.shells = s.shells ∧ ∃ later, t.returned = later ++ s.returned ∧
    ∀ r ∈ later, ∃ message, r.outcome = .ToolError message) ?_ ⟨h, rfl, [], rfl, nofun⟩
  rintro u l v ⟨⟨hidle, hsession⟩, hshells, later, hlater, hraised⟩ - hstep
  cases l with
  | call command restart starts =>
    simp only [step, hidle, Option.isNone_none, if_true, Option.some.injEq] at hstep
    have hreturns : ∃ message, v = u.returns command (.ToolError message) := by
      subst hstep
      cases restart <;> cases command <;> simp [call, hsession, _BashSession.run] <;> exact ⟨_, rfl⟩
    obtain ⟨message, rfl⟩ := hreturns
    refine ⟨⟨rfl, hsession⟩, hshells, ⟨command, u.shells, u.written, .ToolError message⟩ :: later, ?_, ?_⟩
    · rw [State.returns, hlater, List.cons_append]
    · intro r hr
      rcases List.mem_cons.mp hr with rfl | hr
      · exact ⟨message, rfl⟩
      · exact hraised r hr
  | poll | deadline => simp [step, hidle] at hstep
  | stdout | stderr | exit => simp [step, hsession, Option.filter] at hstep

/-- A shell that failed to start answers with an error, and with nothing else after a
restart. -/
theorem unstarted_forever_restart : ∃ s t : State, Unstarted s ∧
    t.returned.map Returned.outcome = [.ToolError "Session has not started.", .raised] ∧ t.shells = s.shells := by
  obtain ⟨s, t, hstarts, hexec, houtcomes⟩ : ∃ s t, step (fun _ _ => []) {} (.call none true false) = some s ∧
      exec (step fun _ _ => []) [.call none true true] s = some t ∧
      t.returned.map Returned.outcome = [.ToolError "Session has not started.", .raised] := ⟨_, _, rfl, rfl, rfl⟩
  have hunstarted : Unstarted s := .of_call rfl hstarts
  obtain ⟨-, hshells, -⟩ := unstarted_forever hunstarted (.of_exec (fun _ _ => trivial) hexec)
  exact ⟨s, t, hunstarted, houtcomes, hshells⟩

end session_manager.bash
