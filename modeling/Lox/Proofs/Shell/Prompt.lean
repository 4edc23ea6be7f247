import Lox.Proofs.Shell.File

/-!
# Conversations

Every line of a conversation is run as if it were the only one: its diagnostics are those of a run in a new
session, whose log is empty, and all that it finds of the lines before it are the global bindings that they
left. The conversation goes on up to a line that ends it, or to the end of input, and what follows a line
that ends it is not run.
-/
namespace Lox

/-! ### Lines -/

/-- A text and its lines. Each line ends with a line end, which only the last may lack, unless it is
empty. -/
inductive Text.CutsInto : List Char → List (List Char) → Prop where
  | nil : CutsInto [] []
  | last {line : List Char} : line ≠ [] → '\n' ∉ line → CutsInto line [line]
  | cons {line rest : List Char} {lines : List (List Char)} :
      '\n' ∉ line → CutsInto rest lines → CutsInto (line ++ '\n' :: rest) (line :: lines)

theorem Text.lines_cuts (text : List Char) : CutsInto text (lines text) := by
  induction text using lines.induct with
  | case1 =>
    rw [lines]
    exact .nil
  | case2 c rest line ih =>
    rw [lines]
    change CutsInto (c :: rest) (line :: lines (rest.drop line.length))
    have inside : '\n' ∉ line := fun member => by
      simpa using List.all_eq_true.mp List.all_takeWhile _ member
    have split : line ++ (c :: rest).dropWhile (· != '\n') = c :: rest :=
      List.takeWhile_append_dropWhile
    cases behind : (c :: rest).dropWhile (· != '\n') with
    | nil =>
      -- No line end is left, so the line is the whole text.
      rw [behind, List.append_nil] at split
      have length := congrArg List.length split
      rw [List.length_cons] at length
      rw [List.drop_eq_nil_of_le (by omega), lines, split]
      rw [split] at inside
      exact .last (List.cons_ne_nil _ _) inside
    | cons first more =>
      have stop := List.head?_dropWhile_not (· != '\n') (c :: rest)
      rw [behind] at split stop
      obtain rfl : first = '\n' := by simpa using stop
      have left : rest.drop line.length = more := by
        have drop := congrArg (List.drop (line.length + 1)) split
        rw [List.drop_succ_cons] at drop
        simpa using drop.symm
      rw [left] at ih ⊢
      rw [← split]
      exact .cons inside ih

/-! ### New sessions with bindings -/

namespace Session

/-- The global bindings of a session. -/
def bindings (session : Session) : List (String × Value) :=
  (session.machine.scopes.all[globals]?.map Scope.bindings).getD []

/-- A new session in which the global bindings are as given. -/
def holding (time : Float) (bindings : List (String × Value)) : Session :=
  { start time with machine := { (start time).machine with scopes := ⟨#[⟨bindings, []⟩]⟩ } }

/-- The same, but with the label of a stage that ran earlier. -/
def resting (time : Float) (bindings : List (String × Value)) (stage : String) : Session :=
  { holding time bindings with log := Log.empty.enter stage }

variable {limits : Limits} {time : Float} {source : String} {traced : Bool} {before after : Session}
  {outcome : Outcome}

theorem resting_start : resting time (start time).bindings "initial" = start time := rfl

/-- A run begins with a stage of its own. -/
theorem run_resting (limits : Limits) (source : String) (traced : Bool) (time : Float)
    (bindings : List (String × Value)) (stage : String) :
    run limits source traced (resting time bindings stage) =
      run limits source traced (holding time bindings) :=
  rfl

/-- A run that returns leaves the scopes that it found, and all of the session but its log and machine. -/
theorem Gated.leaves (gated : Gated limits source traced before outcome after) :
    before.machine.SameScopes after.machine ∧
      after = { before with machine := after.machine, log := after.log } := by
  cases gated with
  | scanning => exact ⟨.refl _, rfl⟩
  | parsing => exact ⟨.refl _, rfl⟩
  | executing _ _ _ attempts => exact ⟨attempts.sameScopes, rfl⟩

/-- Where the global scope is the only one, it is told by its bindings. -/
theorem scopes_eq {session : Session} (alone : session.machine.scopes.links = [[]]) :
    session.machine.scopes = ⟨#[⟨session.bindings, []⟩]⟩ := by
  unfold bindings
  generalize session.machine.scopes = scopes at alone ⊢
  obtain ⟨⟨all⟩⟩ := scopes
  match all with
  | [] => simp [Scopes.links] at alone
  | [⟨bindings, outer⟩] =>
    obtain rfl : outer = [] := List.singleton_inj.mp alone
    rfl
  | _ :: _ :: _ => simp [Scopes.links] at alone

/-- Once its output is taken and its diagnostics are forgotten, nothing is left of a run but bindings. -/
theorem run_holding_leaves {bindings : List (String × Value)}
    (ran : run limits source false (holding time bindings) = .ok outcome after) : { after with
      machine := { after.machine with output := "", calls := #[] }
      log := after.log.clear } = resting time after.bindings after.log.stage := by
  obtain ⟨same, rest⟩ := (Session.Gated.of_run ran).leaves
  have machine : (⟨after.machine.scopes, after.machine.current, "", #[]⟩ : Machine) =
      (holding time after.bindings).machine := by
    rw [scopes_eq same.links, same.current]
    rfl
  have natives : after.natives = (holding time bindings).natives := by rw [rest]
  have closures : after.closures = (holding time bindings).closures := by rw [rest]
  change (⟨after.log.clear, ⟨after.machine.scopes, after.machine.current, "", #[]⟩, after.natives,
    after.closures⟩ : Session) = _
  rw [machine, natives, closures]
  rfl

end Session

namespace Shell

open Session (holding resting)

/-! ### One line after another -/

/-- Lines run one after another, each in a new session with the global bindings that the line before it left,
and the sessions after them. -/
inductive Turns (limits : Limits) (time : Float) :
    List (String × Value) → List String → List Session → Prop where
  | nil {bindings : List (String × Value)} : Turns limits time bindings [] []
  | cons {bindings : List (String × Value)} {line : String} {lines : List String}
      {outcome : Session.Outcome} {after : Session} {others : List Session} :
      Session.run limits line false (holding time bindings) = .ok outcome after →
      Turns limits time after.bindings lines others →
      Turns limits time bindings (line :: lines) (after :: others)

/-- What is written after the banner when some lines were run and the input ended, or not. -/
def recount (turns : List Session) (ended : Bool) : Reply where
  code := 0
  out := String.join (turns.map fun after => promptText ++ after.machine.output) ++ promptText ++
    if ended then "\n" else ""
  err := String.join (turns.map fun after => Diagnostic.lines (after.log.static ++ after.log.runtime))

section

variable {limits : Limits} {time : Float} {bindings : List (String × Value)} {stage line : String}
  {lines : List String} {reply : Reply}

/-- The answer to a line tells of a run in a new session, and leaves no more than its bindings. -/
theorem answer_resting : answer limits false line (resting time bindings stage) =
    match Session.run limits line false (holding time bindings) with
    | .ok _ after =>
      .ok (after.machine.output, Diagnostic.lines (after.log.static ++ after.log.runtime))
        (resting time after.bindings after.log.stage)
    | .error escape after => .error escape after := by
  have executed := @execute_eq limits line (resting time bindings stage) false
  rw [Session.run_resting] at executed
  unfold answer
  cases ran : Session.run limits line false (holding time bindings) with
  | error escape after =>
    rw [ran] at executed
    exact andThen_error executed
  | ok outcome after =>
    rw [ran] at executed
    rw [andThen_ok executed, gated_untraced (Session.Gated.of_run ran), String.empty_append]
    exact congrArg _ (Session.run_holding_leaves ran)

theorem recount_cons (after : Session) (turns : List Session) (ended : Bool) :
    recount (after :: turns) ended =
      ⟨0, promptText ++ after.machine.output ++ (recount turns ended).out,
        Diagnostic.lines (after.log.static ++ after.log.runtime) ++ (recount turns ended).err⟩ := by
  simp [recount, String.join_cons, String.append_assoc]

/-- A reply that is made of another comes exactly if the other does. -/
theorem bind_pure_eq_ok {one : Except Escape Reply} {next : Reply → Reply} :
    (do let reply ← one; pure (next reply)) = .ok reply ↔ ∃ first, one = .ok first ∧ reply = next first := by
  cases one with
  | error escape =>
    constructor
    · nofun
    · rintro ⟨_, ⟨⟩, -⟩
  | ok first =>
    constructor
    · rintro ⟨⟩
      exact ⟨first, rfl, rfl⟩
    · rintro ⟨_, ⟨⟩, rfl⟩
      rfl

/-- A conversation goes on behind a line exactly if the run of the line comes to its end. -/
theorem converse_cons (stays : isExit line = false) :
    converse limits false (line :: lines) (resting time bindings stage) = .ok reply ↔
      ∃ outcome after later, Session.run limits line false (holding time bindings) = .ok outcome after ∧
        converse limits false lines (resting time after.bindings after.log.stage) = .ok later ∧
        reply = ⟨later.code, promptText ++ after.machine.output ++ later.out,
          Diagnostic.lines (after.log.static ++ after.log.runtime) ++ later.err⟩ := by
  rw [converse, if_neg (Bool.eq_false_iff.mp stays), answer_resting]
  cases ran : Session.run limits line false (holding time bindings) with
  | error escape after =>
    constructor
    · nofun
    · rintro ⟨_, _, _, ⟨⟩, -⟩
  | ok outcome after =>
    refine bind_pure_eq_ok.trans ?_
    constructor
    · rintro ⟨later, rest, same⟩
      exact ⟨outcome, after, later, rfl, rest, same⟩
    · rintro ⟨_, _, later, ⟨⟩, rest, same⟩
      exact ⟨later, rest, same⟩

/-- A conversation comes to its end exactly if every line up to one that ends it does. -/
theorem converse_iff : converse limits false lines (resting time bindings stage) = .ok reply ↔
    ∃ turns, Turns limits time bindings (lines.takeWhile fun line => !isExit line) turns ∧
      reply = recount turns (lines.all fun line => !isExit line) := by
  -- A line leaves bindings and a label, so the lines behind it are a conversation from other bindings.
  induction lines generalizing bindings stage reply with
  | nil =>
    constructor
    · intro done
      cases done
      exact ⟨[], .nil, rfl⟩
    · rintro ⟨_, ⟨⟩, rfl⟩
      rfl
  | cons line lines ih =>
    cases exits : isExit line with
    | true =>
      rw [converse, if_pos exits]
      simp only [List.takeWhile_cons, exits, List.all_cons]
      constructor
      · intro done
        cases done
        exact ⟨[], .nil, rfl⟩
      · rintro ⟨_, ⟨⟩, rfl⟩
        rfl
    | false =>
      rw [converse_cons exits]
      simp only [List.takeWhile_cons, exits, List.all_cons]
      constructor
      · rintro ⟨outcome, after, later, ran, rest, rfl⟩
        obtain ⟨turns, others, rfl⟩ := ih.mp rest
        exact ⟨after :: turns, .cons ran others, (recount_cons after turns _).symm⟩
      · rintro ⟨_, turns, rfl⟩
        cases turns with
        | cons ran rest =>
          exact ⟨_, _, _, ran, ih.mpr ⟨_, rest, rfl⟩, recount_cons _ _ _⟩

end

/-- The lines of an input up to one that ends the conversation are run one after another. The conversation
comes to its end exactly if each of their runs does, and then with code zero, having written the banner and
what is told of those runs. -/
theorem prompt_turns (limits : Limits) (time : Float) (input : String) :
    ∃ lines : List String,
      Text.CutsInto (Text.unifyLineEnds input.toList) (lines.map String.toList) ∧
      ∀ answer, prompt limits time false input = .ok answer ↔
        ∃ turns, Turns limits time (Session.start time).bindings
            (lines.takeWhile fun line => !isExit line) turns ∧
          let told := recount turns (lines.all fun line => !isExit line)
          answer = ⟨0, banner ++ told.out, told.err⟩ := by
  let lines := (Text.lines (Text.unifyLineEnds input.toList)).map String.ofList
  have cut : lines.map String.toList = Text.lines (Text.unifyLineEnds input.toList) := by
    simp [lines, Function.comp_def]
  refine ⟨lines, cut ▸ Text.lines_cuts _, fun answer => ?_⟩
  have conversed (reply : Reply) : converse limits false lines (.start time) = .ok reply ↔
      ∃ turns, Turns limits time (Session.start time).bindings
        (lines.takeWhile fun line => !isExit line) turns ∧
        reply = recount turns (lines.all fun line => !isExit line) := by
    rw [← Session.resting_start]
    exact converse_iff
  have whole : prompt limits time false input = (do
      let reply ← converse limits false lines (.start time)
      pure { reply with out := banner ++ reply.out }) := rfl
  rw [whole, bind_pure_eq_ok]
  constructor
  · rintro ⟨reply, rest, rfl⟩
    obtain ⟨turns, run, rfl⟩ := (conversed reply).mp rest
    exact ⟨turns, run, rfl⟩
  · rintro ⟨turns, run, rfl⟩
    exact ⟨_, (conversed _).mpr ⟨turns, run, rfl⟩, rfl⟩

end Shell

end Lox
