import Mosaic.Proofs.Tsx.Values

/-!
# Sources that export a constant

The source that exports one constant with a written value has this export as its only statement.
Each rule on the way to the value is settled by the word or sign in front of it.

* `run_variableDeclaration`, `run_exportRule`: the rules on the way, from the lexemes.
* `exportOf`: the text of such a source.
* `parse?_exportOf`: the program of the source.
-/

namespace Mosaic.Tsx

open Rule Nesting

/-! ## From the lexemes -/

section

variable (g : Nesting) {name : String} {value : Expr} {source declaration binding assigned valued
    ending rest : Text}
  (hexport : Front source (.word "export") declaration)
  (hconst : Front declaration (.word "const") binding)
  (hbinding : Front binding (.word name) assigned)
  (hname : reservedWords.contains name = false)
  (hequals : Front assigned (.sign "=") valued)
  (hread : (g.assignmentAt .last).run valued = some (value, ending))
  (hend : Front ending (.sign ";") rest)

include hbinding hname hequals hread in
/-- The name is bound to the value. -/
theorem run_declarator :
    g.declarator.run binding = some (⟨some name, some value⟩, ending) := by
  have hbound : (some <$> Rule.name : Rule (Option String)).run binding =
      some (some name, assigned) := by
    rw [StateT.run_map, run_name hbinding rfl, hname]
    rfl
  simp [declarator, hbound, run_acceptSign hequals, typeAnnotation, after, hread]

include hconst hbinding hname hequals hread hend in
/-- The declaration ends with the semicolon. -/
theorem run_variableDeclaration :
    g.variableDeclaration.run declaration = some ([⟨some name, some value⟩], rest) := by
  obtain ⟨start, hnext⟩ := run_next hconst
  have hvariable : variableWord.run declaration = some ((), binding) := by
    simp [variableWord, anyWord, hnext]
  have hdeclarator := run_declarator g hbinding hname hequals hread
  have hdeclarators : g.declarators.run declaration =
      some ([⟨some name, some value⟩], ending) := by
    rw [declarators, run_bind_of_run hvariable]
    refine run_iterate_of_last ?_
    simp [hdeclarator, run_acceptSign hend]
  rw [variableDeclaration, run_bind_of_run hdeclarators]
  simp [statementEnd, run_acceptSign hend]

include hconst hbinding hname in
/-- A constant is no enumeration. -/
theorem run_enumeration : g.enumeration.run declaration = none := by
  have henum : name ≠ "enum" := by
    rintro rfl
    cases hname
  simp [enumeration, run_acceptWord hconst, run_word hbinding, henum]

/-- What begins with `const` is an enumeration or a declaration of variables. -/
theorem exportedDeclaration?_const : g.exportedDeclaration? "const" =
    some (other g.enumeration <|> Statement.exportedVariables <$> g.variableDeclaration) := rfl

include hexport hconst hbinding hname hequals hread hend in
/-- The export of a constant is one of its declaration. -/
theorem run_exportRule : g.exportRule.run source =
    some (.exportedVariables [⟨some name, some value⟩], rest) := by
  obtain ⟨start, hpeek⟩ := run_peek hconst
  -- No decorator comes first, and what is declared is no enumeration.
  have hdecorator : g.decorator.run source = none := by
    simp [decorator, run_sign hexport]
  have hdecorators : (many g.decorator).run source = some ((), source) := by
    refine run_iterate_of_last ?_
    simp [run_attempt_of_failure hdecorator]
  have henumeration := run_enumeration g hconst hbinding hname
  have hdeclaration := run_variableDeclaration g hconst hbinding hname hequals hread hend
  simp [exportRule, hdecorators, run_word hexport, hpeek, exportedDeclaration?_const, other,
    henumeration, hdeclaration]

include hexport hconst hbinding hname hequals hread hend in
/-- An exported constant is a statement. -/
theorem run_statementRule : g.statementRule.run source =
    some (.exportedVariables [⟨some name, some value⟩], rest) := by
  obtain ⟨start, hpeek⟩ := run_peek hexport
  have hrule := run_exportRule g hexport hconst hbinding hname hequals hread hend
  simp [statementRule, hpeek, hrule]

end

/-- A round of the loop over the statements of a source. -/
def programStep (g : Nesting) (found : Program) : Rule (Bool × Program) := do
  if (← peek).token = .ending then return (false, found)
  return (true, found ++ [← g.statement])

theorem programRule_eq (g : Nesting) : programRule g = iterate (programStep g) [] := rfl

/-- A text that is a single statement is the program of this statement. -/
theorem run_programRule {g : Nesting} {text : Text} {token : Token} {after : Text}
    {statement : Statement} (hfront : Front text token after) (htoken : token ≠ .ending)
    (hread : g.statement.run text = some (statement, [])) :
    (programRule g).run text = some ([statement], []) := by
  obtain ⟨start, hpeek⟩ := run_peek hfront
  obtain ⟨start', hpeek'⟩ := run_peek front_nil
  have hround : (programStep g []).run text = some ((true, [statement]), []) := by
    simp [programStep, hpeek, htoken, hread]
  have hlast : (programStep g [statement]).run [] = some ((false, [statement]), []) := by
    simp [programStep, hpeek']
  obtain ⟨c, tail, rfl⟩ := hfront.exists_eq_cons htoken
  rw [programRule_eq, run_iterate, run_repeatFrom_of_more hround, run_repeatFrom_of_last hlast]

/-! ## From the text -/

/-- The source that exports a constant with a value. -/
def exportOf (name : String) (value : Json) : String :=
  "export const " ++ name ++ " = " ++ value.compact ++ ";"

theorem toList_exportOf (name : String) (value : Json) : (exportOf name value).toList =
    "export".toList ++ ' ' :: ("const".toList ++ ' ' :: (name.toList ++ ' ' :: '=' :: ' ' ::
      (value.compactChars ++ [';']))) := by
  unfold exportOf Json.compact
  simp

/-- **The program of a source** that exports a constant: its value is read as what it is. -/
theorem parse?_exportOf {kind : Int → Prop} {name : String} {value : Json} (hword : IsWord name)
    (hname : reservedWords.contains name = false) (hvalue : Json.Integral kind value) :
    Program.parse? (exportOf name value) =
      some [.exportedVariables [⟨some name, some (.ofJson value)⟩]] := by
  have hexportWord : IsWord "export" := by decide
  have hconstWord : IsWord "const" := by decide
  -- The text is cut into what stands behind each of its first lexemes.
  let ending : Text := [';']
  let valued : Text := ' ' :: (value.compactChars ++ ending)
  let assigned : Text := ' ' :: '=' :: valued
  let binding : Text := ' ' :: (name.toList ++ assigned)
  let declaration : Text := ' ' :: ("const".toList ++ binding)
  have htext : (exportOf name value).toList = "export".toList ++ declaration :=
    toList_exportOf name value
  have hexport : Front ("export".toList ++ declaration) (.word "export") declaration :=
    front_word hexportWord (separated_space _)
  have hconst : Front declaration (.word "const") binding :=
    front_space (front_word hconstWord (separated_space _))
  have hbinding : Front binding (.word name) assigned :=
    front_space (front_word hword (separated_space _))
  have hequals : Front assigned (.sign "=") valued := front_space (front_equals _)
  have hend : Front ending (.sign ";") [] := front_jsonSign (by decide) []
  have hclosing : Closing ending := ⟨';', [], rfl, by decide⟩
  -- The depth of the grammar is more than that of the value, which is part of the text.
  have hlength : value.depth < 2 * ("export".toList ++ declaration).length + 1 := by
    have hdepth := Json.Spacing.depth_le_length_compactChars value
    simp only [declaration, binding, assigned, valued, List.length_append, List.length_cons]
    omega
  have hread := run_assignmentAt hvalue hlength .last hclosing (.inr rfl)
  have hstatement := run_statementRule _ hexport hconst hbinding hname hequals hread hend
  have hprogram : (programRule (grammar (2 * ("export".toList ++ declaration).length + 2))).run
      ("export".toList ++ declaration) = some (_, []) :=
    run_programRule hexport (by simp) hstatement
  have hskip : skipInterpreterLine ("export".toList ++ declaration) =
      "export".toList ++ declaration := rfl
  rw [Program.parse?, htext, hskip, hprogram]
  rfl

end Mosaic.Tsx
