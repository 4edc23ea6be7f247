import Lox.Shell
import Mathlib.Data.List.Induction
import Mathlib.Tactic.Push

/-!
# What arguments ask for

Arguments are read from left to right. A call for help, a flag that is not known, and an argument that
follows a path each decide alone, and the first of them wins. Where there is none, a file is run if a path
is named, and else the shell converses. An empty argument names no path, so one that stands alone asks
for a conversation, and one that stands before a path is passed over.
-/
namespace Lox.Shell

/-- An argument that looks like a flag. -/
abbrev Dashed (argument : String) : Prop := argument.toList.head? = some '-'

/-- The arguments that do not look like flags. -/
def plain (arguments : List String) : List String := arguments.filter (¬Dashed ·)

/-- The first path that arguments name; empty if they name none. -/
def namedPath (arguments : List String) : String := ((plain arguments).find? (· ≠ "")).getD ""

/-- Arguments of which none decides alone: there is no flag but the one for debugging, and what else there
is does not follow a path. -/
structure Undecided (arguments : List String) : Prop where
  flags : ∀ argument ∈ arguments, Dashed argument → argument = "--debug"
  single : ∀ argument ∈ (plain arguments).dropLast, argument = ""

/-- What arguments ask for. -/
inductive Asks : List String → Request → Prop where
  | help {before after : List String} {argument : String} :
      Undecided before → argument = "--help" ∨ argument = "-h" →
      Asks (before ++ argument :: after) .help
  | unknownFlag {before after : List String} {argument : String} :
      Undecided before → Dashed argument → argument ∉ ["--help", "-h", "--debug"] →
      Asks (before ++ argument :: after) (.unknownFlag argument)
  /-- The argument follows a path. -/
  | unexpected {before after : List String} {argument path : String} :
      Undecided before → path ∈ plain before → path ≠ "" → ¬Dashed argument →
      Asks (before ++ argument :: after) (.unexpected argument)
  | prompt {arguments : List String} :
      Undecided arguments → (∀ argument ∈ plain arguments, argument = "") →
      Asks arguments (.prompt (decide ("--debug" ∈ arguments)))
  | file {arguments : List String} {path : String} :
      Undecided arguments → path ∈ plain arguments → path ≠ "" →
      Asks arguments (.file path (decide ("--debug" ∈ arguments)))

section

variable {arguments before after : List String} {argument path : String}

/-! ### Paths among arguments -/

/-- An argument that looks like no flag is none. -/
theorem ne_flag (bare : ¬Dashed argument) {flag : String} (dashed : Dashed flag) : argument ≠ flag :=
  fun same => bare (same ▸ dashed)

theorem plain_append_of_dashed (dashed : Dashed argument) :
    plain (arguments ++ [argument]) = plain arguments := by
  simp [plain, dashed]

theorem plain_append_of_plain (bare : ¬Dashed argument) :
    plain (arguments ++ [argument]) = plain arguments ++ [argument] := by
  simp [plain, bare]

theorem namedPath_eq_empty :
    namedPath arguments = "" ↔ ∀ argument ∈ plain arguments, argument = "" := by
  unfold namedPath
  cases found : (plain arguments).find? (· ≠ "") with
  | none => simpa using found
  | some path =>
    have some : path ≠ "" := by simpa using List.find?_some found
    have member := List.mem_of_find?_eq_some found
    simp only [Option.getD_some, some, false_iff]
    intro blank
    exact some (blank path member)

/-- A path that is named last is the one that is found if there is none before it. -/
theorem namedPath_append (bare : ¬Dashed argument) (none : namedPath arguments = "") :
    namedPath (arguments ++ [argument]) = argument := by
  have blank := namedPath_eq_empty.mp none
  have before : (plain arguments).find? (· ≠ "") = .none := by simpa using blank
  unfold namedPath
  rw [plain_append_of_plain bare, List.find?_append, before, Option.none_or]
  by_cases empty : argument = ""
  · simp [empty]
  · simp [empty]

/-! ### Arguments that decide nothing alone -/

namespace Undecided

theorem nil : Undecided [] := ⟨by simp, by simp [plain]⟩

/-- The last argument may be the flag for debugging, or any that is no flag and follows no path. -/
theorem append_iff : Undecided (arguments ++ [argument]) ↔ Undecided arguments ∧
    (argument = "--debug" ∨ ¬Dashed argument ∧ namedPath arguments = "") := by
  constructor
  · rintro ⟨flags, single⟩
    have earlier : ∀ argument ∈ arguments, Dashed argument → argument = "--debug" :=
      fun _ member => flags _ (List.mem_append_left _ member)
    by_cases dashed : Dashed argument
    · rw [plain_append_of_dashed dashed] at single
      exact ⟨⟨earlier, single⟩, .inl (flags argument (by simp) dashed)⟩
    · rw [plain_append_of_plain dashed, List.dropLast_concat] at single
      refine ⟨⟨earlier, fun argument member => ?_⟩, .inr ⟨dashed, namedPath_eq_empty.mpr single⟩⟩
      exact single argument (List.dropLast_subset _ member)
  · rintro ⟨⟨flags, single⟩, debug | ⟨bare, none⟩⟩
    · have dashed : Dashed argument := debug ▸ rfl
      constructor
      · intro other member looks
        rcases List.mem_append.mp member with earlier | last
        · exact flags other earlier looks
        · exact (List.mem_singleton.mp last).trans debug
      · rwa [plain_append_of_dashed dashed]
    · constructor
      · intro other member looks
        rcases List.mem_append.mp member with earlier | last
        · exact flags other earlier looks
        · exact absurd (List.mem_singleton.mp last ▸ looks) bare
      · rw [plain_append_of_plain bare, List.dropLast_concat]
        exact namedPath_eq_empty.mp none

/-- Of arguments that decide nothing alone only one can be a path. -/
theorem namedPath_eq (undecided : Undecided arguments) (member : path ∈ plain arguments)
    (some : path ≠ "") : namedPath arguments = path := by
  induction arguments using List.reverseRecOn with
  | nil => simp [plain] at member
  | append_singleton arguments last ih =>
    obtain ⟨earlier, rfl | ⟨bare, none⟩⟩ := append_iff.mp undecided
    · have same : plain (arguments ++ ["--debug"]) = plain arguments := plain_append_of_dashed rfl
      rw [same] at member
      have known := ih earlier member
      unfold namedPath at known ⊢
      rwa [same]
    · rw [plain_append_of_plain bare, List.mem_append, List.mem_singleton] at member
      rcases member with before | rfl
      · exact absurd (namedPath_eq_empty.mp none path before) some
      · exact namedPath_append bare none

/-- Arguments that decide nothing alone leave the path and the flag to those that follow. -/
theorem ofArguments_append (undecided : Undecided before) (rest : List String) :
    Request.ofArguments (before ++ rest) =
      Request.continue (namedPath before) (decide ("--debug" ∈ before)) rest := by
  -- The induction is on the arguments from the last one, since what is found depends on those before.
  induction before using List.reverseRecOn generalizing rest with
  | nil => rfl
  | append_singleton before argument ih =>
    obtain ⟨earlier, rfl | ⟨bare, none⟩⟩ := append_iff.mp undecided
    · have same : namedPath (before ++ ["--debug"]) = namedPath before := by
        unfold namedPath
        rw [plain_append_of_dashed rfl]
      rw [List.append_assoc, List.singleton_append, ih earlier, same]
      simp [Request.continue]
    · have help : argument ≠ "--help" := ne_flag bare rfl
      have short : argument ≠ "-h" := ne_flag bare rfl
      have debug : argument ≠ "--debug" := ne_flag bare rfl
      rw [List.append_assoc, List.singleton_append, ih earlier, namedPath_append bare none, none]
      simp [Request.continue, help, short, debug, debug.symm, bare]

end Undecided

/-! ### Every list of arguments asks for one thing -/

/-- What arguments are found to ask for is what they ask for. -/
theorem Asks.ofArguments_eq {request : Request} (asks : Asks arguments request) :
    Request.ofArguments arguments = request := by
  -- What is undecided so far leaves the arguments behind it to be gone through.
  cases asks with
  | help undecided flag =>
    rw [undecided.ofArguments_append, Request.continue, if_pos flag]
  | unknownFlag undecided dashed other =>
    simp only [List.mem_cons, List.not_mem_nil, or_false, not_or] at other
    rw [undecided.ofArguments_append, Request.continue, if_neg (by simp [other.1, other.2.1]),
      if_neg other.2.2, if_pos dashed]
  | @unexpected before after argument path undecided member some bare =>
    have help : ¬(argument = "--help" ∨ argument = "-h") :=
      not_or_intro (ne_flag bare rfl) (ne_flag bare rfl)
    have found : namedPath before ≠ "" := undecided.namedPath_eq member some ▸ some
    rw [undecided.ofArguments_append, Request.continue, if_neg help, if_neg (ne_flag bare rfl),
      if_neg bare, if_neg found]
  | prompt undecided blank =>
    have whole := undecided.ofArguments_append []
    rw [List.append_nil, namedPath_eq_empty.mpr blank] at whole
    exact whole
  | file undecided member some =>
    have whole := undecided.ofArguments_append []
    rw [List.append_nil, undecided.namedPath_eq member some, Request.continue, if_neg some] at whole
    exact whole

/-- The first argument that decides alone, if there is one. -/
theorem undecided_or (arguments : List String) : Undecided arguments ∨
    ∃ before argument after, arguments = before ++ argument :: after ∧ Undecided before ∧
      ¬Undecided (before ++ [argument]) := by
  -- What decides among all but the last decides among all, so the last one counts only if none of the
  -- others does.
  induction arguments using List.reverseRecOn with
  | nil => exact .inl .nil
  | append_singleton arguments last ih =>
    rcases ih with undecided | ⟨before, argument, after, rfl, undecided, decides⟩
    · by_cases whole : Undecided (arguments ++ [last])
      · exact .inl whole
      · exact .inr ⟨arguments, last, [], rfl, undecided, whole⟩
    · exact .inr ⟨before, argument, after ++ [last], by simp, undecided, decides⟩

theorem Asks.exists (arguments : List String) : ∃ request, Asks arguments request := by
  rcases undecided_or arguments with undecided | ⟨before, argument, after, rfl, undecided, decides⟩
  · by_cases blank : ∀ argument ∈ plain arguments, argument = ""
    · exact ⟨_, .prompt undecided blank⟩
    · push Not at blank
      obtain ⟨path, member, some⟩ := blank
      exact ⟨_, .file undecided member some⟩
  · rw [Undecided.append_iff, not_and_or, not_or, not_and_or] at decides
    obtain ⟨other, found⟩ := decides.resolve_left (not_not_intro undecided)
    by_cases help : argument = "--help" ∨ argument = "-h"
    · exact ⟨_, .help undecided help⟩
    by_cases dashed : Dashed argument
    · refine ⟨_, .unknownFlag undecided dashed ?_⟩
      simp only [List.mem_cons, List.not_mem_nil, or_false, not_or]
      exact ⟨fun same => help (.inl same), fun same => help (.inr same), other⟩
    · have some : ¬∀ argument ∈ plain before, argument = "" :=
        fun blank => (found.resolve_left (not_not_intro dashed)) (namedPath_eq_empty.mpr blank)
      push Not at some
      obtain ⟨path, member, some⟩ := some
      exact ⟨_, .unexpected undecided member some dashed⟩

end

/-- Whatever the arguments, they ask for one thing and no other, and that is what is answered. A call for
help and what is wrong with the arguments are answered alike whatever the files and the input are. -/
theorem reply_asked (limits : Limits) (time : Float) (read : String → Except ReadError ByteArray)
    (input : String) (arguments : List String) :
    ∃ request, (∀ other, Asks arguments other ↔ other = request) ∧
      reply limits time read input arguments = match request with
        | .help => .ok ⟨0, usage, ""⟩
        | .unknownFlag argument => .ok ⟨2, "", complaint ("unknown flag '" ++ argument ++ "'")⟩
        | .unexpected argument => .ok ⟨2, "", complaint ("unexpected argument '" ++ argument ++ "'")⟩
        | .prompt debug => prompt limits time debug input
        | .file path debug => runFile limits time path debug (read path) := by
  obtain ⟨request, asks⟩ := Asks.exists arguments
  refine ⟨request, fun other => ⟨fun asked => ?_, fun same => same ▸ asks⟩, ?_⟩
  · exact asked.ofArguments_eq.symm.trans asks.ofArguments_eq
  · unfold reply
    rw [asks.ofArguments_eq]
    cases request <;> rfl

/-- An empty argument is taken for no path: it is answered by a conversation and not as a file that
cannot be found, although it does not look like a flag. -/
theorem reply_blank_path :
    let read : String → Except ReadError ByteArray := fun _ => .error .missing
    plain [""] = [""] ∧
      reply .standard 0 read "" [""] = .ok ⟨0, banner ++ (promptText ++ "\n"), ""⟩ ∧
      runFile .standard 0 "" false (read "") = .ok ⟨1, "", complaint ": No such file or directory"⟩ ∧
      reply .standard 0 read "" [""] ≠ runFile .standard 0 "" false (read "") := by
  have silent : Text.lines (Text.unifyLineEnds "".toList) = [] := Text.lines.eq_1
  have conversed : prompt .standard 0 false "" = .ok ⟨0, banner ++ (promptText ++ "\n"), ""⟩ := by
    unfold prompt
    rw [silent]
    rfl
  refine ⟨rfl, conversed, rfl, fun same => ?_⟩
  have codes := congrArg Reply.code (Except.ok.inj (conversed.symm.trans same))
  exact absurd codes (by decide)

end Lox.Shell
