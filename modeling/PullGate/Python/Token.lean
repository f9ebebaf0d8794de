import PullGate.Grammar.Rule
/-!
# Words of Python's grammar

The tokens, phrases and marks that the grammar of Python is written in, and the kinds of nodes of
the trees it yields.
-/

namespace PullGate.Python

open PullGate.Grammar (Rule)

/-! ## Kinds of nodes -/

/-- What a node of a tree is. -/
inductive Kind where
  -- tokens
  | identifier | integerLiteral | floatLiteral | trueLiteral | falseLiteral | noneLiteral
  | ellipsis | comment | lineContinuation | stringStart | stringEnd | escapeInterpolation
  | escapeSequence | typeConversion
  -- statements
  | program | block | futureImportStatement | importStatement | importFromStatement
  | importPrefix | relativeImport | aliasedImport | wildcardImport | dottedName
  | printStatement | chevron | assertStatement | expressionStatement | returnStatement
  | deleteStatement | raiseStatement | passStatement | breakStatement | continueStatement
  | globalStatement | nonlocalStatement | execStatement | typeAliasStatement
  | ifStatement | elifClause | elseClause | matchStatement | caseClause | forStatement
  | whileStatement | tryStatement | exceptClause | exceptGroupClause | finallyClause
  | withStatement | withClause | withItem | functionDefinition | classDefinition
  | decoratedDefinition | decorator | parameters | lambdaParameters | typeParameter
  | argumentList | keywordArgument | expressionList | parenthesizedListSplat
  -- patterns
  | casePattern | keywordPattern | splatPattern | classPattern | complexPattern | unionPattern
  | dictPattern | tuplePattern | listPattern | patternList | listSplatPattern
  | dictionarySplatPattern | asPattern | asPatternTarget | defaultParameter | typedParameter
  | typedDefaultParameter | keywordSeparator | positionalSeparator
  -- expressions
  | listSplat | dictionarySplat | namedExpression | notOperator | booleanOperator
  | binaryOperator | unaryOperator | comparisonOperator | lambda
  | lambdaWithinForInClause | assignment | augmentedAssignment | yieldExpression | attributeAccess
  | subscript | slice | call | typeExpression | splatType | genericType | unionType
  | constrainedType | memberType | list | set | tuple | dictionary | entry | listComprehension
  | dictionaryComprehension | setComprehension | generatorExpression | parenthesizedExpression
  | forInClause | ifClause | conditionalExpression | concatenatedString | string | stringContent
  | interpolation | formatExpression | formatSpecifier | await
  deriving DecidableEq, Hashable, Repr

/-! ## Tokens and phrases -/

/-- A token. -/
inductive Token where
  /-- A keyword or a mark, by its text. -/
  | literal (text : String)
  /-- A token that is a node of the tree. -/
  | node (kind : Kind)
  /-- The end of a simple statement. -/
  | newline
  | indent
  | dedent
  /-- Characters of a string that stand for themselves. -/
  | plainText
  /-- A backslash in a string that begins no escape. -/
  | loneBackslash
  /-- Characters of the format of a replacement field. -/
  | formatText
  deriving DecidableEq, Hashable, Repr

/-- A phrase: one that is a node of the tree, or one whose parts take its place. -/
inductive Phrase where
  | node (kind : Kind)
  | statement | simpleStatements | importList | namedTarget | matchBlock | simpleCasePattern
  | asCasePattern | listCasePattern | tupleCasePattern | entryPattern | parameterList | patterns
  | forSource | notIn | isNot | rightHandSide | elements | comprehensionClauses
  | fieldExpression | expression | primary | pattern | parameter
  deriving DecidableEq, Hashable, Repr

/-- The kinds that are tokens. -/
def Kind.isToken : Kind → Bool
  | .identifier | .integerLiteral | .floatLiteral | .trueLiteral | .falseLiteral | .noneLiteral
  | .ellipsis | .comment | .lineContinuation | .stringStart | .stringEnd | .escapeInterpolation
  | .escapeSequence | .typeConversion => true
  | _ => false

/-! ## Marks -/

/-- What a part is to the node it belongs to. -/
inductive Role where
  | name | parameters | returnType | body | left | alias
  deriving DecidableEq, Hashable, Repr

/-- What the grammar notes on a part of a phrase. -/
inductive Mark where
  | role (r : Role)
  /-- The part is a node of this kind whatever phrase it was read as. -/
  | kind (k : Kind)
  deriving DecidableEq, Hashable, Repr

/-- A rule of Python's grammar. -/
abbrev PythonRule := Rule Token Phrase Mark

instance : Coe String PythonRule := ⟨fun text => .token (.literal text)⟩
instance : Coe Token PythonRule := ⟨.token⟩
instance : Coe Phrase PythonRule := ⟨.phrase⟩
instance : Coe Kind PythonRule :=
  ⟨fun k => if k.isToken then .token (.node k) else .phrase (.node k)⟩

end PullGate.Python
