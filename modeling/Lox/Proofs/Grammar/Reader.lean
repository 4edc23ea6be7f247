import Lox.Grammar.Statement

/-!
# What readers do to a cursor

Whatever its outcome, a reader passes some tokens and adds some reports, and leaves everything else
of the cursor alone. `Meets` states this together with a condition on what was passed and added, and
has one rule for every way in which readers are put together.
-/
namespace Lox.Grammar

variable {α β : Type} {cursor : Cursor}

/-! ### Steps, one by one -/

theorem bind_apply (reader : Read α) (next : α → Read β) (cursor : Cursor) :
    (reader >>= next) cursor = match reader cursor with
      | .ok result after => next result after
      | .error stop after => .error stop after := by
  change EStateM.bind reader next cursor = _
  unfold EStateM.bind
  cases reader cursor <;> rfl

theorem discard_apply (reader : Read α) (cursor : Cursor) :
    (discard reader : Read Unit) cursor = match reader cursor with
      | .ok _ after => .ok () after
      | .error stop after => .error stop after := by
  change EStateM.map (fun _ => ()) reader cursor = _
  unfold EStateM.map
  cases reader cursor <;> rfl

theorem bind_ok {reader : Read α} {next : α → Read β} {result : α} {after : Cursor}
    (first : reader cursor = .ok result after) :
    (reader >>= next) cursor = next result after := by
  rw [bind_apply, first]

theorem discard_ok {reader : Read α} {result : α} {after : Cursor}
    (first : reader cursor = .ok result after) :
    (discard reader : Read Unit) cursor = .ok () after := by
  rw [discard_apply, first]

section

variable {token : Token} {rest : List Token}

theorem current_apply (here : cursor.rest = token :: rest) :
    current cursor = .ok token cursor := by
  simp only [current, here]

theorem advance_apply (here : cursor.rest = token :: rest) (inside : token.isEnd = false) :
    advance cursor = .ok token { cursor with rest, position := cursor.position + 1 } := by
  simp only [advance, here, inside, Bool.false_eq_true, if_false]

theorem advance_apply_end (here : cursor.rest = token :: rest) (last : token.isEnd = true) :
    advance cursor = .ok token cursor := by
  simp only [advance, here, last, if_true]

theorem refuse_apply (here : cursor.rest = token :: rest) (error : StaticError) :
    (refuse error : Read α) cursor = .error (.refused error token) cursor := by
  change (current >>= _) cursor = _
  rw [bind_apply, current_apply here]
  rfl

end

/-! ### Levels of the stack -/

section

variable {levels stack : Nat} {body : Nat → Read α}

theorem calling_of_le (enough : levels ≤ stack) :
    calling levels stack body = body (stack - levels) :=
  if_pos enough

/-- A call is an overflow, or the body on what is left of the stack. -/
theorem calling_eq (levels stack : Nat) (body : Nat → Read α) :
    calling levels stack body = throw .overflow ∨
      ∃ left, calling levels stack body = body left := by
  unfold calling
  split
  · exact .inr ⟨_, rfl⟩
  · exact .inl rfl

end

/-! ### Outcomes of one reader after another -/

section

variable {reader : Read α} {next : α → Read β} {after : Cursor}

theorem bind_eq_ok {result : β} : (reader >>= next) cursor = .ok result after ↔
    ∃ first middle, reader cursor = .ok first middle ∧ next first middle = .ok result after := by
  rw [bind_apply]
  cases reader cursor <;> simp [and_assoc]

theorem bind_eq_error {stop : Stop} : (reader >>= next) cursor = .error stop after ↔
    reader cursor = .error stop after ∨
      ∃ first middle, reader cursor = .ok first middle ∧ next first middle = .error stop after := by
  rw [bind_apply]
  cases reader cursor <;> simp [and_assoc]

theorem discard_eq_ok : (discard reader : Read Unit) cursor = .ok () after ↔
    ∃ result, reader cursor = .ok result after := by
  rw [discard_apply]
  cases reader cursor <;> simp

theorem discard_eq_error {stop : Stop} : (discard reader : Read Unit) cursor = .error stop after ↔
    reader cursor = .error stop after := by
  rw [discard_apply]
  cases reader cursor <;> simp

theorem nested_eq_ok {construct : Nesting} {body : Read α} {result : α} :
    nested construct body cursor = .ok result after ↔ cursor.depth < cursor.cap ∧
      ∃ inner, body { cursor with depth := cursor.depth + 1 } = .ok result inner ∧
        after = { inner with depth := inner.depth - 1 } := by
  unfold nested
  by_cases full : cursor.cap ≤ cursor.depth
  · simp only [full, if_true, Nat.not_lt.mpr full, false_and, iff_false]
    intro outcome
    obtain ⟨_, _, _, impossible⟩ := bind_eq_ok.mp outcome
    cases impossible
  · rw [if_neg full]
    simp only [Nat.lt_of_not_le full, true_and]
    cases body { cursor with depth := cursor.depth + 1 } <;> simp [eq_comm, and_assoc]

theorem nested_eq_error {construct : Nesting} {body : Read α} {stop : Stop} :
    nested construct body cursor = .error stop after ↔
      cursor.cap ≤ cursor.depth ∧ (refuse (.tooDeep construct) : Read α) cursor = .error stop after ∨
      cursor.depth < cursor.cap ∧
        ∃ inner, body { cursor with depth := cursor.depth + 1 } = .error stop inner ∧
          after = { inner with depth := inner.depth - 1 } := by
  unfold nested
  by_cases full : cursor.cap ≤ cursor.depth
  · simp [full, Nat.not_lt.mpr full]
  · rw [if_neg full]
    simp only [full, false_and, false_or, Nat.lt_of_not_le full, true_and]
    cases body { cursor with depth := cursor.depth + 1 } <;> simp [eq_comm, and_assoc]

/-- What can be read needs no recovery. -/
theorem recovering_ok {body : Read Stmt} {stmt : Stmt} (read : body cursor = .ok stmt after) :
    recovering body cursor = .ok (some stmt) after := by
  unfold recovering
  rw [read]

end

/-! ### From a cursor to a later one -/

/-- Some tokens before the end of input are passed and some reports are added. -/
structure Cursor.Reaches (before after : Cursor) (passed : List Token)
    (added : List StaticReport) : Prop where
  rest : before.rest = passed ++ after.rest
  position : after.position = before.position + passed.length
  depth : after.depth = before.depth
  cap : after.cap = before.cap
  reports : after.reports = before.reports ++ added
  inside : ∀ token ∈ passed, token.isEnd = false

/-- An end of input is still to come. -/
def Cursor.Ends (cursor : Cursor) : Prop := ∃ token ∈ cursor.rest, token.isEnd = true

namespace Cursor

theorem Reaches.refl (cursor : Cursor) : cursor.Reaches cursor [] [] :=
  ⟨rfl, rfl, rfl, rfl, (List.append_nil _).symm, by simp⟩

theorem Reaches.trans {first second third : Cursor} {passed more : List Token}
    {added extra : List StaticReport} (front : first.Reaches second passed added)
    (back : second.Reaches third more extra) :
    first.Reaches third (passed ++ more) (added ++ extra) where
  rest := by rw [front.rest, back.rest, List.append_assoc]
  position := by rw [back.position, front.position, List.length_append, Nat.add_assoc]
  depth := back.depth.trans front.depth
  cap := back.cap.trans front.cap
  reports := by rw [back.reports, front.reports, List.append_assoc]
  inside token member := (List.mem_append.mp member).elim (front.inside token) (back.inside token)

/-- An end of input is not passed. -/
theorem Reaches.ends {before after : Cursor} {passed : List Token} {added : List StaticReport}
    (reach : before.Reaches after passed added) (ends : before.Ends) : after.Ends := by
  obtain ⟨token, member, last⟩ := ends
  rw [reach.rest, List.mem_append] at member
  rcases member with before | after
  · rw [reach.inside token before] at last
    exact absurd last (by decide)
  · exact ⟨token, after, last⟩

theorem Reaches.length {before after : Cursor} {passed : List Token} {added : List StaticReport}
    (reach : before.Reaches after passed added) :
    before.rest.length = passed.length + after.rest.length := by
  rw [reach.rest, List.length_append]

/-- Nothing is passed at the end of input. -/
theorem Reaches.eq_nil_of_isEnd {before after : Cursor} {passed rest : List Token}
    {added : List StaticReport} {token : Token} (reach : before.Reaches after passed added)
    (here : before.rest = token :: rest) (last : token.isEnd = true) : passed = [] := by
  cases passed with
  | nil => rfl
  | cons first more =>
    have same : token = first := (List.cons.inj (here.symm.trans reach.rest)).1
    have inside := reach.inside first List.mem_cons_self
    rw [← same, last] at inside
    exact absurd inside (by decide)

theorem Ends.exists_cons (ends : cursor.Ends) : ∃ token rest, cursor.rest = token :: rest := by
  obtain ⟨token, member, -⟩ := ends
  exact List.exists_cons_of_ne_nil (List.ne_nil_of_mem member)

end Cursor

/-! ### Conditions on outcomes -/

/-- A condition on a result, what was passed and added for it, and the cursor after it. -/
abbrev Done (α : Type) := α → List Token → List StaticReport → Cursor → Prop

/-- A condition on the reason for a stop, and what was passed and added before it. -/
abbrev Stopped := Stop → List Token → List StaticReport → Prop

/-- With some tokens passed and reports added so far, a reader goes on from a cursor to meet a
condition on its result or one on its stop. -/
def Meets (reader : Read α) (cursor : Cursor) (passed : List Token) (added : List StaticReport)
    (done : Done α) (stopped : Stopped) : Prop :=
  match reader cursor with
  | .ok result after => ∃ more extra,
      cursor.Reaches after more extra ∧ done result (passed ++ more) (added ++ extra) after
  | .error stop after => ∃ more extra,
      cursor.Reaches after more extra ∧ stopped stop (passed ++ more) (added ++ extra)

namespace Meets

variable {reader : Read α} {next : α → Read β} {done : Done α} {goal : Done β}
  {stopped looser : Stopped} {passed : List Token} {added : List StaticReport}

theorem pure {result : α} (known : done result passed added cursor) :
    Meets (pure result) cursor passed added done stopped :=
  ⟨[], [], .refl cursor, by simpa using known⟩

theorem throw {stop : Stop} (known : stopped stop passed added) :
    Meets (throw stop : Read α) cursor passed added done stopped :=
  ⟨[], [], .refl cursor, by simpa using known⟩

/-- A reader that is the last to read. -/
theorem last {goal : Done α} (meets : Meets reader cursor [] [] done looser)
    (stops : ∀ stop more extra, looser stop more extra →
      stopped stop (passed ++ more) (added ++ extra))
    (results : ∀ result more extra after, cursor.Reaches after more extra →
      done result more extra after → goal result (passed ++ more) (added ++ extra) after) :
    Meets reader cursor passed added goal stopped := by
  unfold Meets at meets ⊢
  split at meets
  · obtain ⟨more, extra, reach, known⟩ := meets
    exact ⟨more, extra, reach, results _ _ _ _ reach known⟩
  · obtain ⟨more, extra, reach, known⟩ := meets
    exact ⟨more, extra, reach, stops _ _ _ known⟩

/-- A reader meets any looser condition on its result. -/
theorem mono {goal : Done α} (meets : Meets reader cursor passed added done stopped)
    (results : ∀ result more extra after, done result more extra after →
      goal result more extra after) :
    Meets reader cursor passed added goal stopped := by
  unfold Meets at meets ⊢
  split at meets
  · obtain ⟨more, extra, reach, known⟩ := meets
    exact ⟨more, extra, reach, results _ _ _ _ known⟩
  · exact meets

theorem bind (first : Meets reader cursor [] [] done looser)
    (stops : ∀ stop more extra, looser stop more extra →
      stopped stop (passed ++ more) (added ++ extra))
    (second : ∀ result more extra after, cursor.Reaches after more extra →
      done result more extra after →
      Meets (next result) after (passed ++ more) (added ++ extra) goal stopped) :
    Meets (reader >>= next) cursor passed added goal stopped := by
  unfold Meets at first ⊢
  rw [bind_apply]
  cases outcome : reader cursor with
  | ok result after =>
    rw [outcome] at first
    obtain ⟨more, extra, reach, known⟩ := first
    have later := second result more extra after reach known
    unfold Meets at later
    simp only
    -- A stop of the second reader comes behind what the first one passed, like a result of it.
    split at later
    next =>
      obtain ⟨further, others, onward, known⟩ := later
      exact ⟨more ++ further, extra ++ others, reach.trans onward, by
        simpa only [List.append_assoc] using known⟩
    next =>
      obtain ⟨further, others, onward, known⟩ := later
      exact ⟨more ++ further, extra ++ others, reach.trans onward, by
        simpa only [List.append_assoc] using known⟩
  | error stop after =>
    rw [outcome] at first
    obtain ⟨more, extra, reach, known⟩ := first
    exact ⟨more, extra, reach, stops _ _ _ known⟩

/-- A reader whose result is not used. -/
theorem discarded (meets : Meets reader cursor [] [] done stopped) :
    Meets (discard reader) cursor [] []
      (fun _ more extra after => ∃ result, done result more extra after) stopped := by
  unfold Meets at meets ⊢
  rw [discard_apply]
  cases outcome : reader cursor with
  | ok result after =>
    simp only [outcome] at meets
    obtain ⟨more, extra, reach, known⟩ := meets
    exact ⟨more, extra, reach, result, known⟩
  | error stop after => simpa only [outcome] using meets

end Meets

/-! ### The steps that readers are built from -/

/-- What is passed when a token is: nothing if it is the end of input. -/
def Takes (token : Token) (passed : List Token) : Prop :=
  token.isEnd = false ∧ passed = [token] ∨ token.isEnd = true ∧ passed = []

/-- The reader stops where it stands. -/
def Refuses (error : StaticError) : Stopped := fun stop passed added =>
  (∃ token, stop = .refused error token) ∧ passed = [] ∧ added = []

namespace Meets

variable {next : Token → Read β} {then_ : Unit → Read β} {done : Done β} {stopped : Stopped}
  {passed : List Token} {added : List StaticReport}

/-- Goes on with the token under the cursor. -/
theorem look (ends : cursor.Ends)
    (onward : ∀ token rest, cursor.rest = token :: rest →
      Meets (next token) cursor passed added done stopped) :
    Meets (current >>= next) cursor passed added done stopped := by
  obtain ⟨token, rest, here⟩ := ends.exists_cons
  unfold Meets
  rw [bind_apply, current_apply here]
  exact onward token rest here

theorem looked (ends : cursor.Ends) :
    Meets current cursor [] [] (fun _ more extra _ => more = [] ∧ extra = [])
      (fun _ _ _ => False) := by
  obtain ⟨token, rest, here⟩ := ends.exists_cons
  unfold Meets
  rw [current_apply here]
  exact ⟨[], [], .refl cursor, rfl, rfl⟩

theorem advanced {token : Token} {rest : List Token} (here : cursor.rest = token :: rest) :
    Meets advance cursor [] [] (fun result more extra _ =>
      result = token ∧ extra = [] ∧ Takes token more) (fun _ _ _ => False) := by
  unfold Meets
  cases last : token.isEnd with
  | true =>
    rw [advance_apply_end here last]
    exact ⟨[], [], .refl cursor, rfl, rfl, .inr ⟨last, rfl⟩⟩
  | false =>
    rw [advance_apply here last]
    refine ⟨[token], [], ⟨here, rfl, rfl, rfl, (List.append_nil _).symm, ?_⟩, rfl, rfl, .inl ⟨last, rfl⟩⟩
    simpa using last

/-- Passes the token under the cursor and goes on with it. -/
theorem advance {token : Token} {rest : List Token} (here : cursor.rest = token :: rest)
    (onward : ∀ more after, cursor.Reaches after more [] → Takes token more →
      Meets (next token) after (passed ++ more) added done stopped) :
    Meets (advance >>= next) cursor passed added done stopped := by
  refine bind (advanced here) (fun _ _ _ => False.elim) ?_
  rintro _ more _ after reach ⟨rfl, rfl, taken⟩
  simpa using onward more after reach taken

/-- Passes the token under the cursor. -/
theorem pass {token : Token} {rest : List Token} (here : cursor.rest = token :: rest)
    (onward : ∀ more after, cursor.Reaches after more [] → Takes token more →
      Meets (then_ ()) after (passed ++ more) added done stopped) :
    Meets (discard Grammar.advance >>= then_) cursor passed added done stopped := by
  refine bind (discarded (advanced here)) (fun _ _ _ => False.elim) ?_
  rintro _ more _ after reach ⟨_, rfl, rfl, taken⟩
  simpa using onward more after reach taken

theorem refuse (ends : cursor.Ends) {error : StaticError} {done : Done α}
    (known : ∀ token, stopped (.refused error token) passed added) :
    Meets (refuse error) cursor passed added done stopped := by
  obtain ⟨token, rest, here⟩ := ends.exists_cons
  unfold Meets
  rw [refuse_apply here]
  exact ⟨[], [], .refl cursor, by simpa using known token⟩

theorem reported (token : Token) (error : StaticError) :
    Meets (report token error) cursor [] []
      (fun _ more extra _ => more = [] ∧ extra = [⟨token.line, error⟩]) (fun _ _ _ => False) :=
  ⟨[], [⟨token.line, error⟩], ⟨rfl, rfl, rfl, rfl, rfl, by simp⟩, rfl, rfl⟩

/-- Reports and goes on. -/
theorem report {token : Token} {error : StaticError}
    (onward : ∀ after, cursor.Reaches after [] [⟨token.line, error⟩] →
      Meets (then_ ()) after passed (added ++ [⟨token.line, error⟩]) done stopped) :
    Meets (report token error >>= then_) cursor passed added done stopped := by
  refine bind (reported token error) (fun _ _ _ => False.elim) ?_
  rintro _ _ _ after reach ⟨rfl, rfl⟩
  simpa using onward after reach

/-- What is known once a token with some property is passed. -/
def Found (property : Token → Prop) (cursor : Cursor) : Done Token := fun token more extra _ =>
  (∃ rest, cursor.rest = token :: rest) ∧ property token ∧ extra = [] ∧ Takes token more

theorem expected (ends : cursor.Ends) (text what : String) :
    Meets (Grammar.expect text what) cursor [] [] (Found (·.spells text = true) cursor)
      (Refuses (.expected what)) := by
  refine look ends fun token rest here => ?_
  split
  next spelled =>
    refine (advanced here).last (fun _ _ _ => False.elim) ?_
    rintro _ more extra after - ⟨rfl, rfl, taken⟩
    exact ⟨⟨rest, here⟩, spelled, rfl, taken⟩
  next => exact refuse ends fun token => ⟨⟨token, rfl⟩, rfl, rfl⟩

theorem named (ends : cursor.Ends) (what : String) :
    Meets (Grammar.expectName what) cursor [] [] (Found (·.kind = .identifier) cursor)
      (Refuses (.expected what)) := by
  refine look ends fun token rest here => ?_
  split
  next name =>
    refine (advanced here).last (fun _ _ _ => False.elim) ?_
    rintro _ more extra after - ⟨rfl, rfl, taken⟩
    exact ⟨⟨rest, here⟩, name, rfl, taken⟩
  next => exact refuse ends fun token => ⟨⟨token, rfl⟩, rfl, rfl⟩

/-- Goes on with a token that is passed only if it has some property. -/
theorem found {reader : Read Token} {property : Token → Prop} {error : StaticError}
    (meets : Meets reader cursor [] [] (Found property cursor) (Refuses error))
    (refused : ∀ token, stopped (.refused error token) passed added)
    (onward : ∀ token rest more after, cursor.rest = token :: rest → property token →
      cursor.Reaches after more [] → Takes token more →
      Meets (next token) after (passed ++ more) added done stopped) :
    Meets (reader >>= next) cursor passed added done stopped := by
  refine bind meets ?_ ?_
  · rintro _ _ _ ⟨⟨token, rfl⟩, rfl, rfl⟩
    simpa using refused token
  · rintro token more _ after reach ⟨⟨rest, here⟩, known, rfl, taken⟩
    simpa using onward token rest more after here known reach taken

/-- Goes on after a token that is passed only if it is spelled as called for. -/
theorem expect (ends : cursor.Ends) {text what : String}
    (refused : ∀ token, stopped (.refused (.expected what) token) passed added)
    (onward : ∀ token rest more after, cursor.rest = token :: rest → token.spells text = true →
      cursor.Reaches after more [] → Takes token more →
      Meets (then_ ()) after (passed ++ more) added done stopped) :
    Meets (discard (Grammar.expect text what) >>= then_) cursor passed added done stopped := by
  refine bind (discarded (expected ends text what)) ?_ ?_
  · rintro _ _ _ ⟨⟨token, rfl⟩, rfl, rfl⟩
    simpa using refused token
  · rintro _ more _ after reach ⟨token, ⟨rest, here⟩, known, rfl, taken⟩
    simpa using onward token rest more after here known reach taken

/-- Under the cap, a construct is opened and closed again. -/
theorem nested {construct : Nesting} {body : Read α} {done : Done α}
    (room : cursor.depth < cursor.cap)
    (inner : Meets body { cursor with depth := cursor.depth + 1 } passed added
      (fun result more extra after =>
        done result more extra { after with depth := cursor.depth }) stopped) :
    Meets (nested construct body) cursor passed added done stopped := by
  unfold Meets Grammar.nested
  rw [if_neg (Nat.not_le.mpr room)]
  unfold Meets at inner
  cases outcome : body { cursor with depth := cursor.depth + 1 } with
  | ok result after =>
    rw [outcome] at inner
    obtain ⟨more, extra, reach, known⟩ := inner
    -- The body leaves the depth that it found, so closing it leaves the one before.
    have closed : after.depth - 1 = cursor.depth := by rw [reach.depth]; rfl
    simp only [closed]
    exact ⟨more, extra, ⟨reach.rest, reach.position, rfl, reach.cap, reach.reports, reach.inside⟩, known⟩
  | error stop after =>
    rw [outcome] at inner
    obtain ⟨more, extra, reach, known⟩ := inner
    have closed : after.depth - 1 = cursor.depth := by rw [reach.depth]; rfl
    simp only [closed]
    exact ⟨more, extra, ⟨reach.rest, reach.position, rfl, reach.cap, reach.reports, reach.inside⟩, known⟩

/-- A call reads on what is left of the stack, or overflows. -/
theorem calling {levels stack : Nat} {body : Nat → Read α} {done : Done α}
    (short : stopped .overflow passed added)
    (inner : ∀ left, Meets (body left) cursor passed added done stopped) :
    Meets (calling levels stack body) cursor passed added done stopped := by
  obtain same | ⟨left, same⟩ := calling_eq levels stack body
  · rw [same]
    exact throw short
  · rw [same]
    exact inner left

/-- At the cap, no construct is opened. -/
theorem nested_full {construct : Nesting} {body : Read α} {done : Done α} (ends : cursor.Ends)
    (full : cursor.cap ≤ cursor.depth)
    (known : ∀ token, stopped (.refused (.tooDeep construct) token) passed added) :
    Meets (Grammar.nested construct body) cursor passed added done stopped := by
  have unfolded : Grammar.nested construct body cursor =
      Grammar.refuse (.tooDeep construct) cursor := by
    unfold Grammar.nested
    rw [if_pos full]
  unfold Meets
  rw [unfolded]
  exact refuse ends known

/-- A statement that is refused is reported, and reading goes on behind it. -/
theorem recovering {body : Read Stmt} {done : Done Stmt} {goal : Done (Option Stmt)}
    {looser : Stopped} (meets : Meets body cursor [] [] done looser)
    (read : ∀ result more extra after, cursor.Reaches after more extra →
      done result more extra after → goal (some result) more extra after)
    (refused : ∀ error token more extra after, cursor.Reaches after more extra →
      looser (.refused error token) more extra →
      Meets (do Grammar.report token error; recover; Pure.pure none) after more extra goal stopped)
    (others : ∀ stop more extra, (∀ error token, stop ≠ .refused error token) →
      looser stop more extra → stopped stop more extra) :
    Meets (recovering body) cursor [] [] goal stopped := by
  unfold Meets at meets
  cases outcome : body cursor with
  | ok result after =>
    rw [outcome] at meets
    obtain ⟨more, extra, reach, known⟩ := meets
    unfold Meets
    rw [recovering_ok outcome]
    exact ⟨more, extra, reach, read _ _ _ _ reach known⟩
  | error stop after =>
    rw [outcome] at meets
    obtain ⟨more, extra, reach, known⟩ := meets
    unfold Meets Grammar.recovering
    rw [outcome]
    cases stop with
    | refused error token =>
      have later := refused error token more extra after reach known
      unfold Meets at later
      simp only
      split at later
      next =>
        obtain ⟨further, others, onward, known⟩ := later
        exact ⟨more ++ further, extra ++ others, reach.trans onward, known⟩
      next =>
        obtain ⟨further, others, onward, known⟩ := later
        exact ⟨more ++ further, extra ++ others, reach.trans onward, known⟩
    | overflow => exact ⟨more, extra, reach, others _ _ _ (fun _ _ => nofun) known⟩
    | exhausted => exact ⟨more, extra, reach, others _ _ _ (fun _ _ => nofun) known⟩

end Meets

end Lox.Grammar
