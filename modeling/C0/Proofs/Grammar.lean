import C0.Token
import Mathlib.Tactic.Common

namespace C0

/-- A class of tokens that the grammar does not tell apart. -/
inductive Terminal where
  | exactly (kind : Kind)
  | identifier
  | uint
  | double
  | char
  | string
  | type
  /-- An operator between two operands. -/
  | operator
  /-- A name that no library function has. -/
  | routine
  /-- The name of a library function that takes nothing. -/
  | bareLibrary
  /-- The name of a library function that takes a value. -/
  | valueLibrary
  /-- The name of a library function that takes a string. -/
  | textLibrary

namespace Terminal

/-- The marks between two operands. -/
def operators : List Mark :=
  [.plus, .minus, .star, .slash, .equal, .notEqual, .less, .greater, .lessEqual, .greaterEqual]

/-- The library functions that take nothing. -/
def bareNames : List String :=
  ["getint", "getdouble", "getchar", "putln"]

/-- The library functions that take a value. -/
def valueNames : List String :=
  ["putint", "putchar", "putdouble"]

/-- The library functions that take a string. -/
def textNames : List String :=
  ["putstr"]

/-- Whether a token is a name of which a test holds. -/
def isName (test : String → Bool) : Kind → Bool
  | .identifier name => test name
  | _ => false

/-- Whether a token belongs to the class. -/
def accepts : Terminal → Kind → Bool
  | exactly kind => (· == kind)
  | identifier => isName fun _ => true
  | uint => (· matches .uint _)
  | double => (· matches .double _)
  | char => (· matches .char _)
  | string => (· matches .string _)
  | type => (· matches .type _)
  | operator => fun kind => match kind with
    | .mark mark => operators.contains mark
    | _ => false
  | routine => isName fun name => !(bareNames ++ valueNames ++ textNames).contains name
  | bareLibrary => isName bareNames.contains
  | valueLibrary => isName valueNames.contains
  | textLibrary => isName textNames.contains

end Terminal

/-- What the grammar has a name for. -/
inductive Rule where
  | program
  | function
  | param
  | declaration
  | block
  | statement
  | conditional
  | iteration
  | expression
  | unary
  | primary

/-- A form of token sequences, in the manner of an extended grammar. -/
inductive Pattern where
  | token (terminal : Terminal)
  | rule (name : Rule)
  | empty
  | seq (first rest : Pattern)
  | either (first other : Pattern)
  | many (item : Pattern)

namespace Pattern

/-- A keyword. -/
def word (word : Keyword) : Pattern :=
  token (.exactly (.keyword word))

/-- A mark. -/
def sign (mark : Mark) : Pattern :=
  token (.exactly (.mark mark))

/-- Some patterns one after the other, and another one behind them. -/
def chain : List Pattern → Pattern → Pattern
  | [], last => last
  | first :: rest, last => seq first (chain rest last)

/-- Some patterns one after the other. -/
def inOrder (patterns : List Pattern) : Pattern :=
  chain patterns empty

/-- One of some patterns. -/
def choice (first : Pattern) : List Pattern → Pattern
  | [] => first
  | other :: more => either first (choice other more)

/-- A pattern or nothing. -/
def maybe (item : Pattern) : Pattern :=
  either empty item

/-- At least one, with commas between them. -/
def separated (item : Pattern) : Pattern :=
  inOrder [item, many (inOrder [sign .comma, item])]

end Pattern

namespace Rule

open Pattern

/-- The grammar of programs. -/
def body : Rule → Pattern
  | program => inOrder [many (choice (rule function) [rule declaration]), token (.exactly .eof)]
  | function => inOrder
      [word .fnWord, token .identifier, sign .openParen, maybe (separated (rule param)),
        sign .closeParen, sign .arrow, token .type, rule block]
  | param => inOrder [maybe (word .constWord), token .identifier, sign .colon, token .type]
  | declaration => choice
      (inOrder [word .letWord, token .identifier, sign .colon, token .type,
        maybe (inOrder [sign .assign, rule expression]), sign .semicolon])
      [inOrder [word .constWord, token .identifier, sign .colon, token .type, sign .assign,
        rule expression, sign .semicolon]]
  | block => inOrder [sign .openBrace, many (rule statement), sign .closeBrace]
  | statement => choice (rule declaration)
      [rule conditional,
        rule iteration,
        inOrder [word .returnWord, maybe (rule expression), sign .semicolon],
        inOrder [word .breakWord, sign .semicolon],
        inOrder [word .continueWord, sign .semicolon],
        rule block,
        sign .semicolon,
        inOrder [rule expression, sign .semicolon]]
  | conditional => inOrder
      [word .ifWord, rule expression, rule block,
        maybe (inOrder [word .elseWord, choice (rule conditional) [rule block]])]
  | iteration => inOrder [word .whileWord, rule expression, rule block]
  | expression => inOrder [rule unary, many (inOrder [token .operator, rule unary])]
  | unary => inOrder
      [many (sign .minus), rule primary, many (inOrder [word .asWord, token .type])]
  | primary => choice (token .identifier)
      [inOrder [token .identifier, sign .assign, rule expression],
        token .uint,
        token .double,
        token .char,
        inOrder [sign .openParen, rule expression, sign .closeParen],
        inOrder [token .routine, sign .openParen, maybe (separated (rule expression)),
          sign .closeParen],
        inOrder [token .bareLibrary, sign .openParen, sign .closeParen],
        inOrder [token .valueLibrary, sign .openParen, rule expression, sign .closeParen],
        inOrder [token .textLibrary, sign .openParen, token .string, sign .closeParen]]

end Rule

namespace Pattern

/-- Tokens that have the form of a pattern. -/
inductive Derives : Pattern → List Kind → Prop
  | token {terminal kind} : terminal.accepts kind = true → Derives (token terminal) [kind]
  | rule {name kinds} : Derives name.body kinds → Derives (rule name) kinds
  | empty : Derives empty []
  | seq {p q kinds more} : Derives p kinds → Derives q more → Derives (seq p q) (kinds ++ more)
  | first {p q kinds} : Derives p kinds → Derives (either p q) kinds
  | other {p q kinds} : Derives q kinds → Derives (either p q) kinds
  | none {p} : Derives (many p) []
  | more {p kinds rest} : Derives p kinds → Derives (many p) rest → Derives (many p) (kinds ++ rest)

variable {p q r : Pattern} {kind : Kind} {kinds : List Kind} {terminal : Terminal}

/-- A token stands for one token of its class. -/
@[simp] theorem derives_token_iff :
    (token terminal).Derives kinds ↔ ∃ kind, terminal.accepts kind = true ∧ kinds = [kind] := by
  constructor
  · rintro ⟨accepted⟩
    exact ⟨_, accepted, rfl⟩
  · rintro ⟨kind, accepted, rfl⟩
    exact .token accepted

theorem derives_token_cons_iff :
    (token terminal).Derives (kind :: kinds) ↔ terminal.accepts kind = true ∧ kinds = [] := by
  rw [derives_token_iff]
  constructor
  · rintro ⟨_, accepted, ⟨rfl, rfl⟩⟩
    exact ⟨accepted, rfl⟩
  · rintro ⟨accepted, rfl⟩
    exact ⟨kind, accepted, rfl⟩

@[simp] theorem derives_empty_iff : empty.Derives kinds ↔ kinds = [] := by
  constructor
  · rintro ⟨⟩
    rfl
  · rintro rfl
    exact .empty

/-- A name stands for what its body stands for. -/
theorem derives_rule_iff {name : Rule} : (rule name).Derives kinds ↔ name.body.Derives kinds := by
  constructor
  · rintro ⟨⟩
    assumption
  · exact .rule

/-- A sequence is split between its two patterns. -/
theorem derives_seq_iff : (seq p q).Derives kinds ↔
    ∃ before after, kinds = before ++ after ∧ p.Derives before ∧ q.Derives after := by
  constructor
  · rintro ⟨⟩
    exact ⟨_, _, rfl, ‹_›, ‹_›⟩
  · rintro ⟨before, after, rfl, first, rest⟩
    exact .seq first rest

/-- A token at the front is the first of the tokens. -/
theorem derives_token_seq_cons_iff : (seq (token terminal) p).Derives (kind :: kinds) ↔
    terminal.accepts kind = true ∧ p.Derives kinds := by
  rw [derives_seq_iff]
  constructor
  · rintro ⟨before, later, same, first, derived⟩
    obtain ⟨_, accepted, rfl⟩ := derives_token_iff.mp first
    cases same
    exact ⟨accepted, derived⟩
  · rintro ⟨accepted, derived⟩
    exact ⟨[kind], kinds, rfl, .token accepted, derived⟩

@[simp] theorem derives_either_iff :
    (either p q).Derives kinds ↔ p.Derives kinds ∨ q.Derives kinds := by
  constructor
  · rintro (_ | _)
    · exact .inl ‹_›
    · exact .inr ‹_›
  · rintro (first | other)
    · exact .first first
    · exact .other other

@[simp] theorem derives_empty_seq_iff : (seq empty p).Derives kinds ↔ p.Derives kinds := by
  rw [derives_seq_iff]
  simp

@[simp] theorem derives_seq_empty_iff : (seq p empty).Derives kinds ↔ p.Derives kinds := by
  rw [derives_seq_iff]
  simp

/-- It does not matter how sequences are bracketed. -/
theorem derives_assoc_iff :
    (seq (seq p q) r).Derives kinds ↔ (seq p (seq q r)).Derives kinds := by
  simp only [derives_seq_iff]
  constructor
  · rintro ⟨_, third, rfl, ⟨first, second, rfl, inFirst, inSecond⟩, inThird⟩
    exact ⟨first, second ++ third, by simp, inFirst, second, third, rfl, inSecond, inThird⟩
  · rintro ⟨first, _, rfl, inFirst, second, third, rfl, inSecond, inThird⟩
    exact ⟨first ++ second, third, by simp, ⟨first, second, rfl, inFirst, inSecond⟩, inThird⟩

/-- A choice at the front is a choice between sequences. -/
theorem derives_either_seq_iff : (seq (either p q) r).Derives kinds ↔
    (either (seq p r) (seq q r)).Derives kinds := by
  simp only [derives_seq_iff, derives_either_iff]
  constructor
  · rintro ⟨before, later, rfl, first | other, derived⟩
    · exact .inl ⟨before, later, rfl, first, derived⟩
    · exact .inr ⟨before, later, rfl, other, derived⟩
  · rintro (⟨before, later, rfl, first, derived⟩ | ⟨before, later, rfl, other, derived⟩)
    · exact ⟨before, later, rfl, .inl first, derived⟩
    · exact ⟨before, later, rfl, .inr other, derived⟩

/-- Repetitions are none, or one before others. -/
theorem derives_many_iff :
    (many p).Derives kinds ↔ kinds = [] ∨ (seq p (many p)).Derives kinds := by
  constructor
  · intro derived
    cases derived with
    | none => exact .inl rfl
    | more item others => exact .inr (.seq item others)
  · rintro (rfl | derived)
    · exact .none
    · obtain ⟨_, _, rfl, item, others⟩ := derives_seq_iff.mp derived
      exact .more item others

/-- Repetitions at the front end at once, or go on after one of them. -/
theorem derives_many_seq_iff :
    (seq (many p) q).Derives kinds ↔ (either q (seq p (seq (many p) q))).Derives kinds := by
  rw [derives_either_iff, ← derives_assoc_iff, derives_seq_iff]
  simp only [derives_many_iff]
  constructor
  · rintro ⟨before, later, rfl, rfl | item, derived⟩
    · exact .inl derived
    · exact .inr (.seq item derived)
  · rintro (derived | derived)
    · exact ⟨[], kinds, rfl, .inl rfl, derived⟩
    · obtain ⟨before, later, rfl, item, derived⟩ := derives_seq_iff.mp derived
      exact ⟨before, later, rfl, .inr item, derived⟩

/-- A name at the front can be replaced by its body. -/
theorem derives_rule_seq_iff {name : Rule} :
    (seq (rule name) q).Derives kinds ↔ (seq name.body q).Derives kinds := by
  simp only [derives_seq_iff, derives_rule_iff]

/-- Patterns in order at the front stand one after the other. -/
theorem derives_inOrder_seq_iff {patterns : List Pattern} :
    (seq (inOrder patterns) q).Derives kinds ↔ (chain patterns q).Derives kinds := by
  induction patterns generalizing kinds with
  | nil => exact derives_empty_seq_iff
  | cons first patterns ih =>
    rw [inOrder, chain, derives_assoc_iff, chain, derives_seq_iff, derives_seq_iff]
    simp only [inOrder] at ih
    simp only [ih]

/-- Repetitions can be put one after the other. -/
theorem Derives.many_append {more : List Kind} (first : (many p).Derives kinds)
    (rest : (many p).Derives more) : (many p).Derives (kinds ++ more) := by
  generalize same : many p = repeated at first
  induction first with
  | none =>
    cases same
    exact rest
  | more item _ _ ih =>
    cases same
    rw [List.append_assoc]
    exact .more item (ih rfl)
  | _ => cases same

/-- Whether nothing has the form of the pattern. No rule allows it. -/
def nullable : Pattern → Bool
  | token _ => false
  | rule _ => false
  | empty => true
  | seq p q => p.nullable && q.nullable
  | either p q => p.nullable || q.nullable
  | many _ => true

end Pattern

namespace Rule

/-- What an operand can begin with. -/
def operandFirsts : List Terminal :=
  [.identifier, .uint, .double, .char, .exactly (.mark .openParen)]

/-- What an expression can begin with. -/
def expressionFirsts : List Terminal :=
  .exactly (.mark .minus) :: operandFirsts

/-- What a rule can begin with. -/
def firsts : Rule → List Terminal
  | program => [.exactly (.keyword .fnWord), .exactly (.keyword .letWord),
      .exactly (.keyword .constWord), .exactly .eof]
  | function => [.exactly (.keyword .fnWord)]
  | param => [.exactly (.keyword .constWord), .identifier]
  | declaration => [.exactly (.keyword .letWord), .exactly (.keyword .constWord)]
  | block => [.exactly (.mark .openBrace)]
  | statement => [.exactly (.keyword .letWord), .exactly (.keyword .constWord),
      .exactly (.keyword .ifWord), .exactly (.keyword .whileWord),
      .exactly (.keyword .returnWord), .exactly (.keyword .breakWord),
      .exactly (.keyword .continueWord), .exactly (.mark .openBrace),
      .exactly (.mark .semicolon)] ++ expressionFirsts
  | conditional => [.exactly (.keyword .ifWord)]
  | iteration => [.exactly (.keyword .whileWord)]
  | expression => expressionFirsts
  | unary => expressionFirsts
  | primary => operandFirsts

end Rule

namespace Pattern

/-- Whether a token can begin what has the form of the pattern. -/
def starts : Pattern → Kind → Bool
  | token terminal, kind => terminal.accepts kind
  | rule name, kind => name.firsts.any (·.accepts kind)
  | empty, _ => false
  | seq p q, kind => p.starts kind || p.nullable && q.starts kind
  | either p q, kind => p.starts kind || q.starts kind
  | many p, kind => p.starts kind

end Pattern

theorem Pattern.starts_either_seq {p q r : Pattern} {kind : Kind} :
    (seq (either p q) r).starts kind = ((seq p r).starts kind || (seq q r).starts kind) := by
  simp only [starts, nullable]
  cases p.nullable <;> cases q.nullable <;> cases p.starts kind <;> cases q.starts kind <;> simp

/-- Whatever has a name takes a token. -/
theorem Rule.body_nullable (name : Rule) : name.body.nullable = false := by
  cases name <;> rfl

/-- A name begins with what its body begins with. -/
theorem Rule.starts_of_body {name : Rule} {kind : Kind} (begins : name.body.starts kind = true) :
    (Pattern.rule name).starts kind = true := by
  cases name <;> cases kind with
  | keyword word => cases word <;> first | rfl | cases begins
  | mark mark => cases mark <;> first | rfl | cases begins
  | _ => first | rfl | cases begins

namespace Pattern

variable {p q r : Pattern} {kind : Kind} {kinds : List Kind}

/-- Tokens begin as their pattern allows, and are missing only where it allows that. -/
theorem Derives.begins (derived : p.Derives kinds) :
    (kinds = [] → p.nullable = true) ∧
      ∀ kind rest, kinds = kind :: rest → p.starts kind = true := by
  induction derived with
  | token accepted =>
    refine ⟨by simp, ?_⟩
    rintro _ _ ⟨rfl⟩
    exact accepted
  | @rule name _ _ ih =>
    refine ⟨fun missing => ?_, fun kind rest same => Rule.starts_of_body (ih.2 kind rest same)⟩
    have allowed := ih.1 missing
    simp [name.body_nullable] at allowed
  | empty => simp [nullable]
  | @seq p q before after _ _ ihFirst ihRest =>
    refine ⟨fun missing => ?_, fun kind rest same => ?_⟩
    · obtain ⟨rfl, rfl⟩ := List.append_eq_nil_iff.mp missing
      simp [nullable, ihFirst.1 rfl, ihRest.1 rfl]
    · cases before with
      | nil => simp [starts, ihFirst.1 rfl, ihRest.2 kind rest same]
      | cons first before =>
        cases same
        simp [starts, ihFirst.2 _ _ rfl]
  | first _ ih =>
    exact ⟨fun missing => by simp [nullable, ih.1 missing],
      fun kind rest same => by simp [starts, ih.2 kind rest same]⟩
  | other _ ih =>
    exact ⟨fun missing => by simp [nullable, ih.1 missing],
      fun kind rest same => by simp [starts, ih.2 kind rest same]⟩
  | none => simp [nullable]
  | @more p item rest _ _ ihItem ihRest =>
    refine ⟨fun _ => rfl, fun kind others same => ?_⟩
    cases item with
    | nil => exact ihRest.2 kind others same
    | cons first item =>
      cases same
      exact ihItem.2 _ _ rfl

/-- What can be empty is told by the pattern. -/
theorem Derives.nullable (derived : p.Derives []) : p.nullable = true :=
  derived.begins.1 rfl

/-- What can begin is told by the pattern. -/
theorem Derives.starts (derived : p.Derives (kind :: kinds)) : p.starts kind = true :=
  derived.begins.2 kind kinds rfl

/-- A pattern has no tokens that begin with one that it cannot begin with. -/
theorem not_derives_of_starts (apart : p.starts kind = false) : ¬ p.Derives (kind :: kinds) := by
  intro derived
  simp [derived.starts] at apart

/-- Some tokens have the form of the pattern. -/
def Productive (p : Pattern) : Prop :=
  ∃ kinds, p.Derives kinds

namespace Productive

theorem token (terminal : Terminal) : (token terminal).Productive := by
  have accepted : ∃ kind, terminal.accepts kind = true := by
    cases terminal with
    | exactly kind => exact ⟨kind, beq_self_eq_true kind⟩
    | identifier => exact ⟨.identifier "", rfl⟩
    | uint => exact ⟨.uint 0, rfl⟩
    | double => exact ⟨.double 0, rfl⟩
    | char => exact ⟨.char 'a', rfl⟩
    | string => exact ⟨.string "", rfl⟩
    | type => exact ⟨.type .int, rfl⟩
    | operator => exact ⟨.mark .plus, rfl⟩
    | routine => exact ⟨.identifier "main", by decide⟩
    | bareLibrary => exact ⟨.identifier "getint", by decide⟩
    | valueLibrary => exact ⟨.identifier "putint", by decide⟩
    | textLibrary => exact ⟨.identifier "putstr", by decide⟩
  obtain ⟨kind, accepted⟩ := accepted
  exact ⟨[kind], .token accepted⟩

/-- A name has tokens if its body has. -/
theorem ofBody {name : Rule} (body : name.body.Productive) : (rule name).Productive := by
  obtain ⟨kinds, derived⟩ := body
  exact ⟨kinds, .rule derived⟩

theorem empty : Pattern.empty.Productive :=
  ⟨[], .empty⟩

/-- Repetitions have tokens, since they can be none. -/
theorem many : (Pattern.many p).Productive :=
  ⟨[], .none⟩

theorem maybe : (Pattern.maybe p).Productive :=
  ⟨[], .first .empty⟩

theorem seq (first : p.Productive) (rest : q.Productive) : (Pattern.seq p q).Productive := by
  obtain ⟨_, first⟩ := first
  obtain ⟨_, rest⟩ := rest
  exact ⟨_, .seq first rest⟩

theorem first (productive : p.Productive) : (either p q).Productive := by
  obtain ⟨kinds, derived⟩ := productive
  exact ⟨kinds, .first derived⟩

/-- Each name of the grammar has tokens. The inner ones come first. -/
theorem rule (name : Rule) : (rule name).Productive := by
  have primary : (Pattern.rule .primary).Productive := .ofBody (.first (token _))
  have unary : (Pattern.rule .unary).Productive := .ofBody (many.seq (primary.seq (many.seq empty)))
  have expression : (Pattern.rule .expression).Productive := .ofBody (unary.seq (many.seq empty))
  have block : (Pattern.rule .block).Productive :=
    .ofBody ((token _).seq (many.seq ((token _).seq empty)))
  have declaration : (Pattern.rule .declaration).Productive :=
    .ofBody (.first ((token _).seq ((token _).seq ((token _).seq ((token _).seq
      (maybe.seq ((token _).seq empty)))))))
  cases name with
  | program => exact .ofBody (many.seq ((token _).seq empty))
  | function =>
    exact .ofBody ((token _).seq ((token _).seq ((token _).seq (maybe.seq ((token _).seq
      ((token _).seq ((token _).seq (block.seq empty))))))))
  | param => exact .ofBody (maybe.seq ((token _).seq ((token _).seq ((token _).seq empty))))
  | declaration => exact declaration
  | block => exact block
  | statement => exact .ofBody (.first declaration)
  | conditional =>
    exact .ofBody ((token _).seq (expression.seq (block.seq (maybe.seq empty))))
  | iteration => exact .ofBody ((token _).seq (expression.seq (block.seq empty)))
  | expression => exact expression
  | unary => exact unary
  | primary => exact primary

end Productive

/-- Every pattern has tokens. -/
theorem productive (p : Pattern) : p.Productive := by
  induction p with
  | token terminal => exact .token terminal
  | rule name => exact .rule name
  | empty => exact .empty
  | seq p q ihFirst ihRest => exact ihFirst.seq ihRest
  | either p q ih _ => exact .first ih
  | many p _ => exact .many

end Pattern

end C0
