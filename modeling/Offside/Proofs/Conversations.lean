import Offside.Interactive.Conversation
import Offside.Proofs.Sessions

/-! # Conversations

What a line does to a conversation can be told from the line and the files alone: it adds source to
the session, chooses a mode, ends the conversation, or changes nothing. So after any lines the
session holds what was added, in order, and the mode is the one that was chosen last. What the
program writes is what these lines are answered with, each before the prompt that it leads to. -/

namespace Offside

/-- A session counts the lines of its source. -/
theorem Session.AtLineStart.lines_eq {s : Session} (h : s.AtLineStart) :
    s.lines = s.source.toList.count '\n' := by
  rw [lines, h.pos, Position.after_line]
  exact Nat.zero_add _

namespace Interactive

structure Turn where
  files : Files
  line : String

namespace Turn

/-- What a turn adds to the session: the line if it is neither blank nor a command, or the file that
it loads. -/
def source? (t : Turn) : Option String :=
  match Command.parse t.line with
  | none => if (Text.trim t.line.toList).isEmpty then none else some t.line
  | some (.load, some path) => (t.files path).toOption
  | _ => none

def mode? (t : Turn) : Option Mode :=
  match Command.parse t.line with
  | some (.mode, some word) => Mode.ofWord? word
  | _ => none

def isExit (t : Turn) : Bool :=
  match Command.parse t.line with
  | some (.exit, _) => true
  | _ => false

def heard (ts : List Turn) : List Turn := ts.takeWhile fun t => !t.isExit

/-- The turns that are answered and nothing more. -/
inductive Idle (t : Turn) : Prop where
  | blank (h : Text.trim t.line.toList = [])
  | help {arg} (h : Command.parse t.line = some (.help, arg))
  | clear {arg} (h : Command.parse t.line = some (.clear, arg))
  | version {arg} (h : Command.parse t.line = some (.version, arg))
  | modeShown (h : Command.parse t.line = some (.mode, none))
  | modeUnknown {word} (h : Command.parse t.line = some (.mode, some word))
      (hm : Mode.ofWord? word = none)
  | loadUnnamed (h : Command.parse t.line = some (.load, none))
  | loadFailed {path fault} (h : Command.parse t.line = some (.load, some path))
      (hf : t.files path = .error fault)

end Turn

theorem Command.parse_of_blank {line : String} (h : Text.trim line.toList = []) :
    Command.parse line = none := by
  rw [Command.parse, h]

namespace Conversation

variable {c : Conversation} {t : Turn} {ts : List Turn}

def noting (c : Conversation) (t : Turn) : Conversation where
  session := t.source?.elim c.session fun source => (c.session.feed source).2
  mode := t.mode?.getD c.mode
  printer := c.printer

theorem noting_of_idle (h : t.Idle) : t.isExit = false ∧ c.noting t = c := by
  unfold noting Turn.source? Turn.mode? Turn.isExit
  cases h with
  | blank h => simp [Command.parse_of_blank h, h]
  | help h => simp [h]
  | clear h => simp [h]
  | version h => simp [h]
  | modeShown h => simp [h]
  | modeUnknown h hm => simp [h, hm]
  | loadUnnamed h => simp [h]
  | loadFailed h hf => simp [h, hf, Except.toOption]

theorem scan_snd (c : Conversation) (source : String) :
    (c.scan source).2 = { c with session := (c.session.feed source).2 } := by
  unfold scan
  rcases c.session.feed source with ⟨stream, session⟩
  cases stream <;> rfl

theorem load_snd (c : Conversation) (path : String) (text : Except ReadFault String) :
    (c.load path text).2 = { c with
      session := text.toOption.elim c.session fun source => (c.session.feed source).2 } := by
  cases text with
  | error fault => rfl
  | ok source => exact c.scan_snd source

theorem changeMode_snd (c : Conversation) (arg : Option String) :
    (c.changeMode arg).2 = { c with mode := (arg.bind Mode.ofWord?).getD c.mode } := by
  cases arg with
  | none => rfl
  | some word =>
    rw [changeMode, Option.bind_some]
    cases Mode.ofWord? word <;> rfl

/-- Where a command stands, the line is not blank. -/
theorem answer_command (files : Files) {line : String} {command : Command} {arg : Option String}
    (h : Command.parse line = some (command, arg)) :
    c.answer files line = c.obey files command arg := by
  have notBlank : (Text.trim line.toList).isEmpty = false := by
    rw [Bool.eq_false_iff, Ne, List.isEmpty_iff]
    intro blank
    rw [Command.parse_of_blank blank] at h
    cases h
  simp [answer, notBlank, h]

theorem answer_exit (h : t.isExit = true) : c.answer t.files t.line = .stop := by
  unfold Turn.isExit at h
  split at h
  · next arg parsed => rw [answer_command t.files parsed, obey]
  · cases h

/-- A turn that does not end the conversation is answered, and what it adds and chooses is noted. -/
theorem answer_goOn (h : t.isExit = false) :
    ∃ said, c.answer t.files t.line = .goOn said (c.noting t) := by
  cases parsed : Command.parse t.line with
  | none =>
    have mode : t.mode? = none := by rw [Turn.mode?, parsed]
    by_cases blank : (Text.trim t.line.toList).isEmpty = true
    · have source : t.source? = none := by simp [Turn.source?, parsed, blank]
      exact ⟨.empty, by simp [answer, blank, noting, source, mode]⟩
    · have source : t.source? = some t.line := by simp [Turn.source?, parsed, blank]
      refine ⟨(c.scan t.line).1, ?_⟩
      simp [answer, blank, parsed, noting, source, mode, scan_snd]
  | some said =>
    obtain ⟨command, arg⟩ := said
    rw [answer_command t.files parsed]
    cases command with
    | exit => simp [Turn.isExit, parsed] at h
    | help => exact ⟨_, congrArg _ (noting_of_idle (.help parsed)).2.symm⟩
    | clear => exact ⟨_, congrArg _ (noting_of_idle (.clear parsed)).2.symm⟩
    | version => exact ⟨_, congrArg _ (noting_of_idle (.version parsed)).2.symm⟩
    | mode =>
      refine ⟨(c.changeMode arg).1, ?_⟩
      have chosen : c.noting t = (c.changeMode arg).2 := by
        rw [changeMode_snd]
        cases arg <;> simp [noting, Turn.source?, Turn.mode?, parsed]
      rw [chosen]
      rfl
    | load =>
      cases arg with
      | none => exact ⟨_, congrArg _ (noting_of_idle (.loadUnnamed parsed)).2.symm⟩
      | some path =>
        refine ⟨(c.load path (t.files path)).1, ?_⟩
        have loaded : c.noting t = (c.load path (t.files path)).2 := by
          rw [load_snd]
          simp [noting, Turn.source?, Turn.mode?, parsed]
        rw [loaded]
        rfl

def afterTurns (c : Conversation) : List Turn → Conversation
  | [] => c
  | t :: ts =>
    match c.answer t.files t.line with
    | .stop => c
    | .goOn _ next => next.afterTurns ts

/-- What is written in reply to turns, of which the last is followed by the end of the input. -/
def replies (c : Conversation) : List Turn → Output
  | [] => Dialogue.farewell
  | t :: ts =>
    match c.answer t.files t.line with
    | .stop => .empty
    | .goOn said next => said ++ .ofOut next.prompt ++ next.replies ts

theorem afterTurns_cons_exit (h : t.isExit = true) : c.afterTurns (t :: ts) = c := by
  rw [afterTurns, answer_exit h]

theorem afterTurns_cons (h : t.isExit = false) :
    c.afterTurns (t :: ts) = (c.noting t).afterTurns ts := by
  obtain ⟨said, answered⟩ := answer_goOn (c := c) h
  rw [afterTurns, answered]

theorem afterTurns_eq (c : Conversation) (ts : List Turn) :
    c.afterTurns ts = (Turn.heard ts).foldl noting c := by
  induction ts generalizing c with
  | nil => rfl
  | cons t ts ih =>
    cases exit : t.isExit with
    | true => simp [afterTurns_cons_exit exit, Turn.heard, exit]
    | false =>
      rw [afterTurns_cons exit, ih]
      simp [Turn.heard, exit]

theorem afterTurns_idle (h : t.Idle) (c : Conversation) (ts : List Turn) :
    c.afterTurns (ts ++ [t]) = c.afterTurns ts := by
  obtain ⟨goes_on, noted⟩ := noting_of_idle (c := c.afterTurns ts) h
  induction ts generalizing c with
  | nil =>
    rw [List.nil_append, afterTurns_cons goes_on]
    exact noted
  | cons u ts ih =>
    cases exit : u.isExit with
    | true => rw [List.cons_append, afterTurns_cons_exit exit, afterTurns_cons_exit exit]
    | false =>
      rw [afterTurns_cons exit] at noted
      rw [List.cons_append, afterTurns_cons exit, afterTurns_cons exit, ih _ noted]

/-- Turns behind the one that ends the conversation are neither heard nor answered. -/
theorem afterTurns_exit (h : t.isExit = true) (c : Conversation) (ts more : List Turn) :
    c.afterTurns (ts ++ t :: more) = c.afterTurns ts ∧
      c.replies (ts ++ t :: more) = c.replies (ts ++ [t]) := by
  induction ts generalizing c with
  | nil => exact ⟨afterTurns_cons_exit h, by simp [replies, answer_exit h]⟩
  | cons u ts ih =>
    simp only [List.cons_append, afterTurns, replies]
    cases c.answer u.files u.line with
    | stop => exact ⟨rfl, rfl⟩
    | goOn said next =>
      obtain ⟨after, replied⟩ := ih next
      refine ⟨after, ?_⟩
      simp only [replied]

theorem foldl_noting_session (c : Conversation) (ts : List Turn) :
    (ts.foldl noting c).session = c.session.feedAll (ts.filterMap Turn.source?) := by
  induction ts generalizing c with
  | nil => rfl
  | cons t ts ih =>
    rw [List.foldl_cons, ih, List.filterMap_cons, noting]
    cases t.source? <;> rfl

theorem foldl_noting_mode (c : Conversation) (ts : List Turn) :
    (ts.foldl noting c).mode = (ts.filterMap Turn.mode?).getLast?.getD c.mode := by
  induction ts generalizing c with
  | nil => rfl
  | cons t ts ih =>
    rw [List.foldl_cons, ih, List.filterMap_cons, noting]
    cases t.mode? with
    | none => rfl
    | some mode => simp [List.getLast?_cons]

theorem foldl_noting_printer (c : Conversation) (ts : List Turn) :
    (ts.foldl noting c).printer = c.printer := by
  induction ts generalizing c with
  | nil => rfl
  | cons t ts ih => exact ih (c.noting t)

def entriesFrom (unfinished : String) : List InputLine → List String
  | [] => []
  | line :: lines =>
    let entry := line.after unfinished
    if isIncomplete entry then entriesFrom (entry ++ line.ending) lines
    else entry :: entriesFrom "" lines

def turns (files : Files) (input : String) : List Turn :=
  (entriesFrom "" (InputLine.split input)).map fun line => ⟨files, line⟩

theorem goOn_eq (d : Dialogue) (files : Files) (said : Output) (lines : List InputLine) :
    d.goOn files said lines = said ++
      d.conversation.replies ((entriesFrom d.unfinished lines).map fun line => ⟨files, line⟩) := by
  induction lines generalizing d said with
  | nil => rfl
  | cons line lines ih =>
    simp only [Dialogue.goOn, Dialogue.hear, entriesFrom]
    by_cases more : isIncomplete (line.after d.unfinished) = true
    · simp only [if_pos more, ih, Output.append_empty]
    · simp only [if_neg more, List.map_cons, replies]
      cases d.conversation.answer files (line.after d.unfinished) with
      | stop => exact (Output.append_empty said).symm
      | goOn answer next => simp only [ih, Output.append_assoc]

theorem run_eq (config : Config) (files : Files) (year input : String) :
    run config files year input = .ofOut (greeting year ++ (start config).prompt) ++
      (start config).replies (turns files input) := goOn_eq ..

end Conversation

open Conversation (start)

/-- After any lines the session holds the source that was added by those that were heard, each part
with its last line ended, the prompt counts the lines of it, and the mode is the one that was chosen
last, or else the configured one. A turn that only asks leaves all of it alone, and nothing behind
an exit is heard. The program itself is such a conversation. -/
theorem conversation_keeps (config : Config) (ts : List Turn) :
    let c := (start config).afterTurns ts
    let lines := c.session.source.toList.count '\n'
    let text := s!"misti:{lines}>"
    c.session.source = Session.text ((Turn.heard ts).filterMap Turn.source?) ∧
    c.prompt = (if config.color then Terminal.bold (Terminal.Color.brightGreen.ink text) else text)
      ++ " " ∧
    c.mode = ((Turn.heard ts).filterMap Turn.mode?).getLast?.getD config.mode ∧
    (∀ t : Turn, t.Idle → (start config).afterTurns (ts ++ [t]) = c) ∧
    (∀ t : Turn, t.isExit = true → ∀ more, (start config).afterTurns (ts ++ t :: more) = c ∧
      (start config).replies (ts ++ t :: more) = (start config).replies (ts ++ [t])) ∧
    ∀ files year input, Conversation.run config files year input =
      .ofOut (greeting year ++ (start config).prompt) ++
        (start config).replies (Conversation.turns files input) := by
  intro c lines text
  have reached : c = (Turn.heard ts).foldl Conversation.noting (start config) :=
    Conversation.afterTurns_eq _ _
  have session : c.session = Session.empty.feedAll ((Turn.heard ts).filterMap Turn.source?) := by
    rw [reached, Conversation.foldl_noting_session]
    rfl
  have printer : c.printer = ⟨config.color, config.showPositions⟩ := by
    rw [reached, Conversation.foldl_noting_printer]
    rfl
  obtain ⟨atStart, source⟩ :=
    Session.atLineStart_empty.feedAll ((Turn.heard ts).filterMap Turn.source?)
  rw [← session] at atStart source
  refine ⟨source.trans String.empty_append, ?_, ?_, ?_, ?_, ?_⟩
  · rw [Conversation.prompt, atStart.lines_eq, printer]
  · rw [reached, Conversation.foldl_noting_mode]
    rfl
  · intro t idle
    exact Conversation.afterTurns_idle idle _ _
  · intro t exit more
    exact Conversation.afterTurns_exit exit _ _ _
  · exact fun files year input => Conversation.run_eq config files year input

/-- An operator that looks like a command is source, a file that cannot be read is not, and names
of commands may be short and in any case. -/
theorem conversation_keeps_load :
    let files : Files := fun path => if path = "a" then .ok "1\n2" else .error .notFound
    let ts : List Turn := [⟨files, "x"⟩, ⟨files, ".MODE e"⟩, ⟨files, ".<."⟩, ⟨files, ".l a"⟩]
    let failed : Turn := ⟨files, ".load b"⟩
    let exit : Turn := ⟨files, " .Q now"⟩
    let c := (start .defaults).afterTurns ts
    failed.Idle ∧ exit.isExit = true ∧ c.session.source = "x\n.<.\n1\n2\n" ∧ c.mode = .expr ∧
      (start .defaults).afterTurns (ts ++ [failed]) = c ∧
      (start .defaults).afterTurns (ts ++ [exit, ⟨files, "y"⟩]) = c := by
  intro files ts failed exit c
  have idle : failed.Idle := @Turn.Idle.loadFailed _ "b" .notFound (by decide +kernel) rfl
  have exits : exit.isExit = true := by decide +kernel
  obtain ⟨source, -, mode, kept, stopped, -⟩ := conversation_keeps .defaults ts
  refine ⟨idle, exits, source.trans ?_, mode.trans ?_, kept failed idle, (stopped exit exits _).1⟩
  · decide +kernel
  · decide +kernel

end Interactive

end Offside
