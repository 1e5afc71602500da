import SourceAtlas.Tree
import Std.Data.HashMap

/-!
# Parsing expression grammars

A grammar gives each rule a phrase, and phrases are read with ordered choice: of several
alternatives the first that fits is taken. Between lexemes stand blanks and comments; comments
become nodes beside the lexemes.

* `Source`, `octet`, `Scan`: the octets that are read, and the recognition of one lexeme;
* `Phrase`: lexemes, sequence, choice, repetition, nodes, fields, and left recursion (`grow`);
* `RuleSet`: the phrases of all rules, and what is skipped before a lexeme;
* `RuleSet.parse`: the nodes that a phrase reads at an offset, and the offset after them.
-/

namespace SourceAtlas.Grammar

/-- The octets that are read. -/
abbrev Source := ByteArray

/-- The octet at an offset, zero beyond the end. -/
def octet (src : Source) (i : Nat) : UInt8 := if h : i < src.size then src[i] else 0

/-- Recognises a lexeme at an offset and gives the offset after it. -/
abbrev Scan := Source → Nat → Option Nat

/-- What a grammar allows at one place. -/
inductive Phrase (ρ : Type) where
  /-- One lexeme, after blanks and comments. -/
  | leaf (kind : String) (named : Bool) (scan : Scan)
  /-- One lexeme that starts right here. -/
  | inner (kind : String) (named : Bool) (scan : Scan)
  /-- Nothing, under a condition. -/
  | check (test : Source → Nat → Bool)
  /-- What a rule of the grammar says. -/
  | rule (r : ρ)
  /-- All phrases, one after the other. -/
  | seq (ps : List (Phrase ρ))
  /-- The first phrase that fits. -/
  | alt (ps : List (Phrase ρ))
  /-- The phrase as often as it fits. -/
  | many (p : Phrase ρ)
  /-- A node around what the phrase reads. -/
  | node (kind : String) (p : Phrase ρ)
  /-- What the phrase reads, as a field of the node around it. -/
  | field (name : String) (p : Phrase ρ)
  /-- A head that grows to the right: each tail, given by the kind of the new node, the field of
  the head in it and a phrase, makes what was read so far the first child of a new node. -/
  | grow (head : Phrase ρ) (tails : List (String × Option String × Phrase ρ))

namespace Phrase

variable {ρ : Type}

/-- The phrase or nothing. -/
def opt (p : Phrase ρ) : Phrase ρ := alt [p, seq []]

/-- The phrase at least once. -/
def oneOrMore (p : Phrase ρ) : Phrase ρ := seq [p, many p]

/-- Phrases with a separator between them, at least one. -/
def separated (sep p : Phrase ρ) : Phrase ρ := seq [p, many (seq [sep, p])]

end Phrase

/-- What is read, and the offset after it. -/
abbrev Outcome := Option (List Tree × Nat)

/-- A grammar: the phrase of each rule, and the comments and the offset that blanks and comments
lead to. -/
structure RuleSet (ρ : Type) where
  phrase : ρ → Phrase ρ
  skip : Source → Nat → List Tree × Nat
  comment : String

/-- The outcomes of rules that are known already. -/
abbrev Memo (ρ : Type) [BEq ρ] [Hashable ρ] := Std.HashMap (ρ × Nat) Outcome

namespace RuleSet

variable {ρ : Type} [BEq ρ] [Hashable ρ] (rules : RuleSet ρ) (src : Source)

/-- The comments at the start of a list of nodes, and the other nodes. -/
def splitComments (ts : List Tree) : List Tree × List Tree :=
  ts.span fun t => t.kind = rules.comment

/-- The list without a node around it becomes one node. Comments before the first lexeme stay
outside. An empty node stands at `pos`. -/
def wrap (kind : String) (pos : Nat) (ts : List Tree) : List Tree :=
  let (comments, inner) := rules.splitComments ts
  let start := (inner.head?.map Tree.start).getD pos
  let stop := (inner.getLast?.map Tree.stop).getD start
  comments ++ [{ kind, named := true, field := none, start, stop, children := inner }]

/-- The nodes other than comments take the field `name`. -/
def label (name : String) (ts : List Tree) : List Tree :=
  ts.map fun t => if t.kind = rules.comment then t else { t with field := some name }

/-- The node of a lexeme. -/
def lexeme (kind : String) (named : Bool) (start stop : Nat) : Tree :=
  { kind, named, field := none, start, stop, children := [] }

mutual

/-- What a phrase reads at an offset. The first argument bounds the nesting of calls. -/
def run : Nat → Phrase ρ → Nat → StateM (Memo ρ) Outcome
  | 0, _, _ => pure none
  | n + 1, p, pos =>
    match p with
    | .leaf kind named scan =>
      let (comments, start) := rules.skip src pos
      pure ((scan src start).map fun stop => (comments ++ [lexeme kind named start stop], stop))
    | .inner kind named scan =>
      pure ((scan src pos).map fun stop => ([lexeme kind named pos stop], stop))
    | .check test => pure (if test src pos then some ([], pos) else none)
    | .rule r => do
      match (← get)[(r, pos)]? with
      | some known => pure known
      | none =>
        let found ← run n (rules.phrase r) pos
        modify fun memo => memo.insert (r, pos) found
        pure found
    | .seq ps => runSeq n ps pos
    | .alt ps => runAlt n ps pos
    | .many q => runMany n q pos
    | .node kind q => do
      let found ← run n q pos
      pure (found.map fun (ts, stop) => (rules.wrap kind pos ts, stop))
    | .field name q => do
      let found ← run n q pos
      pure (found.map fun (ts, stop) => (rules.label name ts, stop))
    | .grow head tails => do
      match ← run n head pos with
      | none => pure none
      | some (ts, stop) => runGrow n tails tails ts stop

/-- All phrases, one after the other. -/
def runSeq : Nat → List (Phrase ρ) → Nat → StateM (Memo ρ) Outcome
  | 0, _, _ => pure none
  | _ + 1, [], pos => pure (some ([], pos))
  | n + 1, p :: ps, pos => do
    match ← run n p pos with
    | none => pure none
    | some (ts, next) =>
      match ← runSeq n ps next with
      | none => pure none
      | some (us, stop) => pure (some (ts ++ us, stop))

/-- The first phrase that fits. -/
def runAlt : Nat → List (Phrase ρ) → Nat → StateM (Memo ρ) Outcome
  | 0, _, _ => pure none
  | _ + 1, [], _ => pure none
  | n + 1, p :: ps, pos => do
    match ← run n p pos with
    | some found => pure (some found)
    | none => runAlt n ps pos

/-- The phrase as often as it fits and moves on. -/
def runMany : Nat → Phrase ρ → Nat → StateM (Memo ρ) Outcome
  | 0, _, pos => pure (some ([], pos))
  | n + 1, p, pos => do
    match ← run n p pos with
    | none => pure (some ([], pos))
    | some (ts, next) =>
      if next ≤ pos then pure (some (ts, next))
      else
        match ← runMany n p next with
        | none => pure (some (ts, next))
        | some (us, stop) => pure (some (ts ++ us, stop))

/-- The nodes `ts`, read up to `pos`, grow by the first of `rest` that fits, then by any of
`tails`. -/
def runGrow : Nat → (tails rest : List (String × Option String × Phrase ρ)) → List Tree → Nat →
    StateM (Memo ρ) Outcome
  | 0, _, _, ts, pos => pure (some (ts, pos))
  | _ + 1, _, [], ts, pos => pure (some (ts, pos))
  | n + 1, tails, (kind, fieldName, p) :: rest, ts, pos => do
    match ← run n p pos with
    | none => runGrow n tails rest ts pos
    | some (us, next) =>
      let (comments, head) := rules.splitComments ts
      let head := match fieldName with
        | some name => rules.label name head
        | none => head
      runGrow n tails tails (comments ++ rules.wrap kind pos (head ++ us)) next

end

/-- What a phrase reads at an offset. -/
def parse (p : Phrase ρ) (pos : Nat) : Outcome :=
  ((run rules src (100 * src.size + 1000) p pos).run {}).1

end RuleSet

end SourceAtlas.Grammar
