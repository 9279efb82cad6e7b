import EvolutionJmap.Sieve.Lexer

/-!
# The grammar of Sieve (RFC 5228 §8.2)

A parser by recursive descent.  A string stands for the list of its own, and a test for
the test list of its own.  Each call is given the number of calls below it that are
left; twice the number of tokens is enough.
-/

namespace EvolutionJmap.Sieve

open List Option Nat

inductive Argument where
  | strings (list : List String)
  | number (value : Nat)
  | tag (name : String)
  deriving DecidableEq, Repr

inductive Test where
  | mk (name : String) (arguments : List Argument) (tests : List Test)

/-- A command ends with a semicolon (no block) or with a block. -/
inductive Command where
  | mk (name : String) (arguments : List Argument) (tests : List Test)
      (block : Option (List Command))

/-- `string *("," string) "]"`, behind the bracket that opens a string list. -/
def parseListed : List Token → Option (List String × List Token)
  | .string text :: .rightBracket :: rest => some ([text], rest)
  | .string text :: .comma :: rest => do
      let (texts, rest) ← parseListed rest
      some (text :: texts, rest)
  | _ => none

/-- `*argument` -/
def parseArguments : Nat → List Token → Option (List Argument × List Token)
  | 0, _ => none
  | fuel + 1, .tag name :: rest => do
      let (arguments, rest) ← parseArguments fuel rest
      some (.tag name :: arguments, rest)
  | fuel + 1, .number value :: rest => do
      let (arguments, rest) ← parseArguments fuel rest
      some (.number value :: arguments, rest)
  | fuel + 1, .string text :: rest => do
      let (arguments, rest) ← parseArguments fuel rest
      some (.strings [text] :: arguments, rest)
  | fuel + 1, .leftBracket :: rest => do
      let (texts, rest) ← parseListed rest
      let (arguments, rest) ← parseArguments fuel rest
      some (.strings texts :: arguments, rest)
  | _ + 1, rest => some ([], rest)

mutual

/-- `test = identifier arguments` -/
def parseTest : Nat → List Token → Option (Test × List Token)
  | fuel + 1, .identifier name :: rest => do
      let (arguments, rest) ← parseArguments fuel rest
      let (tests, rest) ← parseNested fuel rest
      some (.mk name arguments tests, rest)
  | _, _ => none

/-- `[ test / test-list ]` -/
def parseNested : Nat → List Token → Option (List Test × List Token)
  | 0, _ => none
  | fuel + 1, .leftParen :: rest => parseTestList fuel rest
  | fuel + 1, .identifier name :: rest => do
      let (test, rest) ← parseTest fuel (.identifier name :: rest)
      some ([test], rest)
  | _ + 1, rest => some ([], rest)

/-- `test *("," test) ")"`, behind the parenthesis that opens a test list. -/
def parseTestList : Nat → List Token → Option (List Test × List Token)
  | 0, _ => none
  | fuel + 1, tokens => do
      let (test, rest) ← parseTest fuel tokens
      match rest with
      | .rightParen :: rest => some ([test], rest)
      | .comma :: rest =>
        let (tests, rest) ← parseTestList fuel rest
        some (test :: tests, rest)
      | _ => none

end

mutual

/-- `command = identifier arguments (";" / block)` -/
def parseCommand : Nat → List Token → Option (Command × List Token)
  | fuel + 1, .identifier name :: rest => do
      let (arguments, rest) ← parseArguments fuel rest
      let (tests, rest) ← parseNested fuel rest
      match rest with
      | .semicolon :: rest => some (.mk name arguments tests none, rest)
      | .leftBrace :: rest =>
        let (block, rest) ← parseCommands fuel rest
        match rest with
        | .rightBrace :: rest => some (.mk name arguments tests (some block), rest)
        | _ => none
      | _ => none
  | _, _ => none

/-- `commands = *command` -/
def parseCommands : Nat → List Token → Option (List Command × List Token)
  | 0, _ => none
  | fuel + 1, .identifier name :: rest => do
      let (command, rest) ← parseCommand fuel (.identifier name :: rest)
      let (commands, rest) ← parseCommands fuel rest
      some (command :: commands, rest)
  | _ + 1, rest => some ([], rest)

end

/-- Parse a script. -/
def parse (text : String) : Option (List Command) := do
  let tokens ← lex text
  match parseCommands (2 * tokens.length + 1) tokens with
  | some (commands, []) => some commands
  | _ => none

/-! ## Extensions -/

/-- The extension of a command or a test that is not in the base language
(RFC 5228, 5232, 9042). -/
def nameExtension : String → Option String
  | "fileinto" => some "fileinto"
  | "envelope" => some "envelope"
  | "addflag" | "setflag" | "removeflag" | "hasflag" => some "imap4flags"
  | "mailboxidexists" => some "mailboxid"
  | _ => none

/-- The extension of a tag that is not in the base language (RFC 3894, 5232, 9042). -/
def Argument.extension : Argument → Option String
  | .tag "copy" => some "copy"
  | .tag "flags" => some "imap4flags"
  | .tag "mailboxid" => some "mailboxid"
  | _ => none

mutual

def Test.extensions : Test → List String
  | .mk name arguments tests =>
    (nameExtension name).toList ++ arguments.filterMap Argument.extension ++ testsExtensions tests

def testsExtensions : List Test → List String
  | [] => []
  | test :: tests => test.extensions ++ testsExtensions tests

end

mutual

def Command.extensions : Command → List String
  | .mk name arguments tests block =>
    (nameExtension name).toList ++ arguments.filterMap Argument.extension ++
      testsExtensions tests ++ blockExtensions block

def blockExtensions : Option (List Command) → List String
  | none => []
  | some commands => commandsExtensions commands

def commandsExtensions : List Command → List String
  | [] => []
  | command :: commands => command.extensions ++ commandsExtensions commands

end

theorem commandsExtensions_append (front back : List Command) :
    commandsExtensions (front ++ back) = commandsExtensions front ++ commandsExtensions back := by
  induction front with
  | nil => rfl
  | cons command front ih => simp [commandsExtensions, ih]

variable {name : String} {commands : List Command}

theorem mem_commandsExtensions :
    name ∈ commandsExtensions commands ↔ ∃ command ∈ commands, name ∈ command.extensions := by
  induction commands with
  | nil => simp [commandsExtensions]
  | cons command commands ih => simp [commandsExtensions, ih]

theorem mem_testsExtensions {tests : List Test} :
    name ∈ testsExtensions tests ↔ ∃ test ∈ tests, name ∈ test.extensions := by
  induction tests with
  | nil => simp [testsExtensions]
  | cons test tests ih => simp [testsExtensions, ih]

/-! ## Arguments -/

def separated (last : Token) : List (List Token) → List Token
  | [] => [last]
  | [tokens] => tokens ++ [last]
  | tokens :: others => tokens ++ .comma :: separated last others

def listedTokens (texts : List String) : List Token :=
  separated .rightBracket (texts.map fun text => [.string text])

/-- The tokens of a list of arguments. -/
inductive Spells : List Token → List Argument → Prop where
  | nil : Spells [] []
  | tag {tokens arguments} (name : String) (rest : Spells tokens arguments) :
      Spells (.tag name :: tokens) (.tag name :: arguments)
  | number {tokens arguments} (value : Nat) (rest : Spells tokens arguments) :
      Spells (.number value :: tokens) (.number value :: arguments)
  | string {tokens arguments} (text : String) (rest : Spells tokens arguments) :
      Spells (.string text :: tokens) (.strings [text] :: arguments)
  | list {tokens arguments texts} (nonempty : texts ≠ []) (rest : Spells tokens arguments) :
      Spells (.leftBracket :: listedTokens texts ++ tokens) (.strings texts :: arguments)

/-- A token that can follow a test or the arguments of a command. -/
inductive Token.Follows : Token → Prop where
  | comma : Follows .comma
  | rightParen : Follows .rightParen
  | leftBrace : Follows .leftBrace
  | semicolon : Follows .semicolon

/-- The token starts no argument. -/
def Token.EndsArguments : Token → Prop
  | .tag _ | .number _ | .string _ | .leftBracket => False
  | _ => True

theorem Token.Follows.endsArguments {token : Token} (follows : token.Follows) :
    token.EndsArguments := by
  cases follows <;> trivial

theorem parseListed_listedTokens {texts : List String} (nonempty : texts ≠ [])
    (rest : List Token) : parseListed (listedTokens texts ++ rest) = some (texts, rest) := by
  induction texts with
  | nil => exact absurd rfl nonempty
  | cons text texts ih =>
    cases texts with
    | nil => rfl
    | cons other texts =>
      have parsed := ih (cons_ne_nil other texts)
      simp only [listedTokens, map_cons] at parsed
      simp [listedTokens, separated, parseListed, parsed]

variable {tokens : List Token} {arguments : List Argument} {next : Token}

theorem parseArguments_spells (spells : Spells tokens arguments) {fuel : Nat}
    (enough : tokens.length < fuel) (ends : next.EndsArguments) (rest : List Token) :
    parseArguments fuel (tokens ++ next :: rest) = some (arguments, next :: rest) := by
  induction spells generalizing fuel with
  | nil =>
    obtain ⟨fuel, rfl⟩ := exists_eq_add_one.mpr enough
    cases next <;> simp_all [parseArguments, Token.EndsArguments]
  | tag name _ ih | number value _ ih | string text _ ih =>
    obtain ⟨fuel, rfl⟩ := exists_eq_add_one.mpr (zero_lt_of_lt enough)
    rw [cons_append, parseArguments, ih (lt_of_succ_lt_succ enough)]
    rfl
  | list nonempty _ ih =>
    obtain ⟨fuel, rfl⟩ := exists_eq_add_one.mpr (zero_lt_of_lt enough)
    simp only [length_append, length_cons] at enough
    rw [append_assoc, cons_append, parseArguments,
      parseListed_listedTokens nonempty, bind_eq_bind, bind_some]
    simp only
    rw [ih (by omega)]
    rfl

/-! ## Tests -/

/-- The parser reads the tokens as the test, whatever follows it. -/
def IsTest (tokens : List Token) (test : Test) : Prop :=
  ∀ (fuel : Nat) (next : Token) (rest : List Token), 2 * tokens.length ≤ fuel → next.Follows →
    parseTest fuel (tokens ++ next :: rest) = some (test, next :: rest)

theorem parseNested_follows {fuel : Nat} (rest : List Token) (follows : next.Follows) :
    parseNested (fuel + 1) (next :: rest) = some ([], next :: rest) := by
  cases follows <;> rfl

theorem parseArguments_identifier (fuel : Nat) (name : String) (rest : List Token) :
    parseArguments (fuel + 1) (.identifier name :: rest) = some ([], .identifier name :: rest) :=
  rfl

theorem parseNested_test {fuel : Nat} {tokens rest : List Token} {test : Test}
    (parsed : parseTest fuel (.identifier name :: tokens) = some (test, rest)) :
    parseNested (fuel + 1) (.identifier name :: tokens) = some ([test], rest) := by
  rw [parseNested, parsed]
  rfl

theorem isTest_leaf (name : String) (spells : Spells tokens arguments) :
    IsTest (.identifier name :: tokens) (.mk name arguments []) := by
  intro fuel next rest enough follows
  rw [length_cons] at enough
  obtain ⟨fuel, rfl⟩ := Nat.exists_eq_add_of_le' (show 2 ≤ fuel by omega)
  rw [cons_append, parseTest,
    parseArguments_spells spells (by omega) follows.endsArguments, bind_eq_bind,
    bind_some]
  simp only
  rw [parseNested_follows rest follows]
  rfl

theorem IsTest.identifier {test : Test} (isTest : IsTest tokens test) :
    ∃ name others, tokens = .identifier name :: others := by
  have parsed := isTest _ _ [] (le_refl _) .comma
  cases tokens with
  | nil => simp [parseTest] at parsed
  | cons token others =>
    cases token with
    | identifier name => exact ⟨name, others, rfl⟩
    | _ => simp [parseTest] at parsed

theorem isTest_nested {test : Test} (name : String) (isTest : IsTest tokens test) :
    IsTest (.identifier name :: tokens) (.mk name [] [test]) := by
  intro fuel next rest enough follows
  obtain ⟨other, others, rfl⟩ := isTest.identifier
  simp only [length_cons] at enough
  obtain ⟨fuel, rfl⟩ := Nat.exists_eq_add_of_le' (show 3 ≤ fuel by omega)
  have parsed := isTest (fuel + 1) next rest (by simp only [length_cons]; omega) follows
  rw [cons_append] at parsed
  have nested := parseNested_test parsed
  rw [cons_append, cons_append, parseTest, parseArguments_identifier,
    bind_eq_bind, bind_some]
  simp [nested]

section

variable {Item : Type*} {tokens : Item → List Token} {test : Item → Test} {items : List Item}

theorem parseTestList_tokens (nonempty : items ≠ [])
    (each : ∀ item ∈ items, IsTest (tokens item) (test item)) {fuel : Nat}
    (enough : 2 * (separated .rightParen (items.map tokens)).length ≤ fuel) (rest : List Token) :
    parseTestList fuel (separated .rightParen (items.map tokens) ++ rest) =
      some (items.map test, rest) := by
  induction items generalizing fuel with
  | nil => exact absurd rfl nonempty
  | cons item items ih =>
    rw [forall_mem_cons] at each
    cases items with
    | nil =>
      simp only [map_cons, map_nil, separated, length_append,
        length_cons, length_nil] at enough ⊢
      obtain ⟨fuel, rfl⟩ := Nat.exists_eq_add_of_le' (show 1 ≤ fuel by omega)
      rw [append_assoc, singleton_append, parseTestList,
        each.1 _ _ rest (by omega) .rightParen]
      rfl
    | cons other items =>
      simp only [map_cons, separated, length_append,
        length_cons] at enough
      obtain ⟨fuel, rfl⟩ := Nat.exists_eq_add_of_le' (show 1 ≤ fuel by omega)
      simp only [map_cons, separated, append_assoc, cons_append,
        parseTestList]
      rw [each.1 _ _ _ (by omega) .comma, bind_eq_bind, bind_some]
      have parsed := @ih (cons_ne_nil other items) each.2 fuel
        (by simp only [map_cons]; omega)
      rw [map_cons] at parsed
      simp only
      rw [parsed]
      rfl

theorem isTest_list (name : String) (nonempty : items ≠ [])
    (each : ∀ item ∈ items, IsTest (tokens item) (test item)) :
    IsTest (.identifier name :: .leftParen :: separated .rightParen (items.map tokens))
      (.mk name [] (items.map test)) := by
  intro fuel next rest enough follows
  simp only [length_cons] at enough
  obtain ⟨fuel, rfl⟩ := Nat.exists_eq_add_of_le' (show 2 ≤ fuel by omega)
  have parsed := parseTestList_tokens nonempty each (Nat.le_of_add_le_add_right
    (show 2 * (separated .rightParen (items.map tokens)).length + 2 ≤ fuel + 2 by omega))
    (next :: rest)
  simp [parseTest, parseArguments, parseNested, parsed]

end

/-! ## Commands -/

/-- The tokens are a command, before whatever comes behind it. -/
def IsCommand (tokens : List Token) (command : Command) : Prop :=
  (∃ name others, tokens = .identifier name :: others) ∧
    ∀ (fuel : Nat) (rest : List Token), 2 * tokens.length ≤ fuel →
      parseCommand fuel (tokens ++ rest) = some (command, rest)

theorem isCommand_plain (name : String) (spells : Spells tokens arguments) :
    IsCommand (.identifier name :: tokens ++ [.semicolon]) (.mk name arguments [] none) := by
  refine ⟨⟨name, _, rfl⟩, ?_⟩
  intro fuel rest enough
  simp only [length_append, length_cons, length_nil] at enough
  obtain ⟨fuel, rfl⟩ := Nat.exists_eq_add_of_le' (show 2 ≤ fuel by omega)
  rw [append_assoc, cons_append, singleton_append, parseCommand,
    parseArguments_spells spells (by omega) Token.Follows.semicolon.endsArguments,
    bind_eq_bind, bind_some]
  simp only
  rw [parseNested_follows rest .semicolon]
  rfl

/-- The tokens of commands, one after another. -/
inductive IsCommands : List Token → List Command → Prop where
  | nil : IsCommands [] []
  | cons {tokens others command commands} (first : IsCommand tokens command)
      (rest : IsCommands others commands) : IsCommands (tokens ++ others) (command :: commands)

namespace IsCommands

theorem append {tokens others : List Token} {front back : List Command}
    (first : IsCommands tokens front) (second : IsCommands others back) :
    IsCommands (tokens ++ others) (front ++ back) := by
  induction first with
  | nil => exact second
  | cons command _ ih =>
    rw [append_assoc]
    exact .cons command ih

theorem flatMap {Item : Type*} {tokens : Item → List Token} {command : Item → Command}
    {items : List Item} (each : ∀ item ∈ items, IsCommand (tokens item) (command item)) :
    IsCommands (items.flatMap tokens) (items.map command) := by
  induction items with
  | nil => exact .nil
  | cons item items ih =>
    rw [forall_mem_cons] at each
    exact .cons each.1 (ih each.2)

theorem parse {tokens : List Token} (isCommands : IsCommands tokens commands) {fuel : Nat}
    {rest : List Token} (enough : 2 * tokens.length < fuel)
    (ends : rest = [] ∨ rest.head? = some .rightBrace) :
    parseCommands fuel (tokens ++ rest) = some (commands, rest) := by
  induction isCommands generalizing fuel with
  | nil =>
    obtain ⟨fuel, rfl⟩ := exists_eq_add_one.mpr enough
    cases rest with
    | nil => rfl
    | cons token rest =>
      simp only [head?_cons, Option.some.injEq, reduceCtorEq, false_or] at ends
      rw [ends]
      rfl
  | @cons _ others _ _ first _ ih =>
    obtain ⟨⟨name, inner, rfl⟩, first⟩ := first
    simp only [length_append, length_cons] at enough
    obtain ⟨fuel, rfl⟩ := Nat.exists_eq_add_of_le' (show 1 ≤ fuel by omega)
    have parsed := first fuel (others ++ rest) (by simp only [length_cons]; omega)
    rw [cons_append] at parsed
    rw [append_assoc, cons_append, parseCommands, parsed, bind_eq_bind,
      bind_some]
    simp only
    rw [ih (by omega)]
    rfl

end IsCommands

theorem isCommand_block {tokens inner : List Token} {test : Test} {block : List Command}
    (name : String) (isTest : IsTest tokens test) (isBlock : IsCommands inner block) :
    IsCommand (.identifier name :: tokens ++ .leftBrace :: inner ++ [.rightBrace])
      (.mk name [] [test] (some block)) := by
  refine ⟨⟨name, _, rfl⟩, ?_⟩
  intro fuel rest enough
  obtain ⟨other, others, rfl⟩ := isTest.identifier
  simp only [length_append, length_cons, length_nil] at enough
  obtain ⟨fuel, rfl⟩ := Nat.exists_eq_add_of_le' (show 3 ≤ fuel by omega)
  have parsed := isTest (fuel + 1) _ (inner ++ .rightBrace :: rest)
    (by simp only [length_cons]; omega) .leftBrace
  have inside : parseCommands (fuel + 2) (inner ++ .rightBrace :: rest) =
      some (block, .rightBrace :: rest) := isBlock.parse (by omega) (.inr rfl)
  rw [cons_append] at parsed
  have nested := parseNested_test parsed
  simp only [cons_append, append_assoc, nil_append]
  rw [parseCommand, parseArguments_identifier, bind_eq_bind, bind_some]
  simp [nested, inside]

/-! ## Lists in the text -/

section

variable {Item : Type*} {text : Item → String} {tokens : Item → List Token} {items : List Item}

theorem reads_separated (nonempty : items ≠ [])
    (each : ∀ item ∈ items, lex (text item) = some (tokens item)) {char : Char} {last : Token}
    (delimits : Delimits char) (closes : start char = some ([last], .blank)) :
    Reads .blank ((", ".intercalate (items.map text)).toList ++ [char])
      (separated last (items.map tokens)) .blank := by
  induction items with
  | nil => exact absurd rfl nonempty
  | cons item items ih =>
    rw [forall_mem_cons] at each
    cases items with
    | nil => exact reads_of_lex each.1 delimits closes
    | cons other items =>
      have comma := reads_of_lex each.1 (by decide : Delimits ',') rfl
      have blank : Reads .blank [' '] [] .blank := rfl
      have rest := ih (cons_ne_nil other items) each.2
      simpa [String.toList_intercalate, intercalate_cons_cons, separated] using
        (comma.append blank).append rest

theorem refuses_separated
    (each : ∀ item ∈ items, lex (text item) = some (tokens item) ∨
      Refuses .blank (text item).toList)
    (refused : ∃ item ∈ items, Refuses .blank (text item).toList) :
    Refuses .blank (", ".intercalate (items.map text)).toList := by
  induction items with
  | nil => simp at refused
  | cons item items ih =>
    rw [forall_mem_cons] at each
    obtain ⟨lexed | refuses, rest⟩ := each
    · have later : ∃ item ∈ items, Refuses .blank (text item).toList := by
        simpa [not_refuses_of_lex lexed] using refused
      cases items with
      | nil => simp at later
      | cons other items =>
        have comma := reads_of_lex lexed (by decide : Delimits ',') rfl
        have blank : Reads .blank [' '] [] .blank := rfl
        simpa [String.toList_intercalate, intercalate_cons_cons] using
          (comma.append blank).refuses (ih rest later)
    · cases items with
      | nil => simpa [String.toList_intercalate] using refuses
      | cons other items =>
        rw [String.toList_intercalate, map_cons, map_cons, map_cons,
          map_cons, intercalate_cons_cons, append_assoc]
        exact refuses.before

end

theorem parse_eq {text : String} {tokens : List Token} (lexed : lex text = some tokens)
    (isCommands : IsCommands tokens commands) : parse text = some commands := by
  have parsed : parseCommands (2 * tokens.length + 1) (tokens ++ []) = some (commands, []) :=
    isCommands.parse (lt_succ_self _) (.inl rfl)
  rw [append_nil] at parsed
  simp [parse, lexed, parsed]

theorem parse_eq_none {text : String} (lexed : lex text = none) : parse text = none := by
  rw [parse, lexed]
  rfl

end EvolutionJmap.Sieve
