import OpenNtl.MigrationRun
import OpenNtl.Replacement
import OpenNtl.SqlText

/-! # The schema that a script is for

`ntl_init_schema` writes the quoted name of the schema into its script. The text it writes goes
through `replaceAll`, to which a dollar sign is not always one.
-/
namespace OpenNtl.Postgres

open AtomicProgram SqlSession Replacement

variable {D R E T α : Type}

def placeholder : String := "\x7b\x7bSCHEMA\x7d\x7d"

structure CreatedSchema where
  created : Bool
  schema : String
  tables : List String
  deriving DecidableEq, Repr

inductive InitOutput where
  | respond (markdown : String) (structured : CreatedSchema)
  | fail (message : String)
  deriving DecidableEq, Repr

def created (schema : String) (tables : List String) : String :=
  "\n".intercalate
    (["openNTL schema created in `" ++ schema ++ "`.", "",
      "Tables (" ++ toString tables.length ++ "):", ""] ++
      tables.map fun name => "- `" ++ name ++ "`")

def ToolOutput.failure : ToolOutput → InitOutput
  | .fail message => .fail message
  | .respond markdown _ => .fail markdown

def World.made (w : World E D Param) : List (Call Param) := w.calls.reverse.map Prod.snd

variable {d : Dialect D Param R} {x : SqlExecutor E D Param R} {root tx : E}

def DoubleDollar (text : List Char) : Prop := ['$', '$'] <:+: text

instance DoubleDollar.decidable (text : List Char) : Decidable (DoubleDollar text) :=
  inferInstanceAs (Decidable (_ <:+: _))

structure AcceptedName (name : List Char) : Prop where
  held : name ≠ []
  short : name.length ≤ 63
  parts : ∀ c ∈ name, isIdentPart c = true

theorem AcceptedName.inner {name : List Char} (accepted : AcceptedName name) :
    ∀ c ∈ name, c ≠ '"' := by
  rintro c mem rfl
  have part := accepted.parts _ mem
  revert part
  decide

/-- Between any two of these pieces of a template, of which the first stands at this place, is a
comment, or a place where a token may begin and after which no double quote comes at once. -/
def StandAlone (place : SqlText.Place) : List (List Char) → Prop
  | p :: q :: rest =>
    let here := SqlText.after place p
    (here.inComment = true ∨
      (here.begins = true ∧ q.head? ≠ some '"' ∧ (q = [] → rest = []))) ∧
    -- whatever the name is, reading goes on as after an empty one
    StandAlone (SqlText.after here ['"', '"']) (q :: rest)
  | _ => True

/-- Where there is something to replace, the name has no two dollar signs in a row. -/
def PlainlyNamed (schema template : String) : Prop :=
  placeholder.toList <:+: template.toList → ¬ DoubleDollar schema.toList

instance PlainlyNamed.decidable (schema template : String) :
    Decidable (PlainlyNamed schema template) :=
  inferInstanceAs (Decidable (_ → ¬ _))

instance StandAlone.decidable : (place : SqlText.Place) → (pieces : List (List Char)) →
    Decidable (StandAlone place pieces)
  | place, p :: q :: rest =>
    have := StandAlone.decidable (SqlText.after (SqlText.after place p) ['"', '"']) (q :: rest)
    inferInstanceAs (Decidable (_ ∧ _))
  | _, [] => .isTrue trivial
  | _, [_] => .isTrue trivial

/-- Outside of comments, each placeholder of the template stands for a token of its own. -/
def TokensNamed (template : String) : Prop :=
  StandAlone (.code []) (pieces placeholder.toList 0 template.toList)

instance TokensNamed.decidable (template : String) : Decidable (TokensNamed template) :=
  inferInstanceAs (Decidable (StandAlone _ _))

example : ¬ TokensNamed (placeholder ++ "\"x\"") := by decide +kernel

example : ¬ TokensNamed ("\"" ++ placeholder ++ "\"") := by decide +kernel

end OpenNtl.Postgres
