import PullGate.Python.Token
/-!
# Python's grammar

The grammar of Python sources, wide enough for old print and exec statements, and without rules
about meaning (a `return` may stand anywhere). Words such as `print` and `match` may also be names.

Levels of binding follow the usual table of operators. Where a rule has no level, a reading that
could go on is kept beside one that ends, and the text decides.
-/

namespace PullGate.Python

open PullGate.Grammar (Rule Side)
open Kind Phrase Token

/-! ## Ways to combine rules -/

/-- The rules one after another. -/
private def seq (rules : List PythonRule) : PythonRule := .sequence rules

/-- Any one of the rules. -/
private def oneOf (rules : List PythonRule) : PythonRule := .oneOf rules

/-- The rule or nothing. -/
private def optional (r : PythonRule) : PythonRule := r.optional

/-- The rule any number of times. -/
private def many (r : PythonRule) : PythonRule := r.many

/-- The rule once or more. -/
private def many1 (r : PythonRule) : PythonRule := .many1 r

/-- The rule once or more, with commas between. -/
private def commaList (r : PythonRule) : PythonRule := .sepBy1 "," r

/-- The rule once or more with commas between, and perhaps one after. -/
private def commaListEnding (r : PythonRule) : PythonRule := seq [commaList r, optional ","]

/-- The rule with a level of binding. -/
private def level (n : Int) (r : PythonRule) : PythonRule := .bind n none r

/-- The rule with a level of binding, a chain of it grouping on the left. -/
private def leftward (n : Int) (r : PythonRule) : PythonRule := .bind n (some Side.left) r

/-- The rule with a level of binding, a chain of it grouping on the right. -/
private def rightward (n : Int) (r : PythonRule) : PythonRule := .bind n (some Side.right) r

/-- The rule as a part with a role. -/
private def role (p : Role) (r : PythonRule) : PythonRule := .mark (.role p) r

/-- The rule as a node of a kind. -/
private def shownAs (k : Kind) (r : PythonRule) : PythonRule := .mark (.kind k) r

/-! ## Parts that several rules share -/

/-- A keyword that may also be a name. -/
private def softKeyword : PythonRule :=
  oneOf [level (-3) (shownAs identifier (oneOf ["print", "exec", "async", "await"])),
    shownAs identifier (oneOf ["type", "match"])]

/-- What follows the colon of a compound statement: statements on the line, an indented block, or
nothing. -/
private def suite : PythonRule :=
  oneOf [shownAs block simpleStatements, seq [indent, block], shownAs block newline]

/-- An expression, or several with commas. -/
private def expressions : PythonRule := oneOf [expression, expressionList]

/-- What may be assigned to. -/
private def target : PythonRule := oneOf [pattern, patternList]

/-- A name, or a part of a value, after a star. -/
private def starred : PythonRule := oneOf [identifier, softKeyword, subscript, attributeAccess]

/-! ## Statements -/

private def simpleStatement : PythonRule :=
  oneOf [futureImportStatement, importStatement, importFromStatement, printStatement,
    assertStatement, expressionStatement, returnStatement, deleteStatement, raiseStatement,
    passStatement, breakStatement, continueStatement, globalStatement, nonlocalStatement,
    execStatement, typeAliasStatement]

private def compoundStatement : PythonRule :=
  oneOf [ifStatement, forStatement, whileStatement, tryStatement, withStatement,
    functionDefinition, classDefinition, decoratedDefinition, matchStatement]

private def simpleStatementRules : List (Phrase × PythonRule) := [
  (.node program, many statement),
  (statement, oneOf [simpleStatements, compoundStatement]),
  (simpleStatements, seq [.sepBy1 ";" simpleStatement, optional ";", newline]),
  (.node importStatement, seq ["import", importList]),
  (.node importPrefix, many1 "."),
  (.node relativeImport, seq [importPrefix, optional dottedName]),
  (.node futureImportStatement,
    seq ["from", "__future__", "import", oneOf [importList, seq ["(", importList, ")"]]]),
  (.node importFromStatement,
    seq ["from", oneOf [relativeImport, dottedName], "import",
      oneOf [wildcardImport, importList, seq ["(", importList, ")"]]]),
  (importList, commaListEnding (oneOf [dottedName, aliasedImport])),
  (.node aliasedImport, seq [dottedName, "as", identifier]),
  (.node wildcardImport, "*"),
  (.node dottedName, level 1 (.sepBy1 "." identifier)),
  (.node printStatement, oneOf [
    level 1 (seq ["print", chevron, many (seq [",", expression]), optional ","]),
    level (-3) (.weigh (-1) (seq ["print", commaListEnding expression]))]),
  (.node chevron, seq [">>", expression]),
  (.node assertStatement, seq ["assert", commaList expression]),
  (.node expressionStatement,
    oneOf [expression, commaListEnding expression, assignment, augmentedAssignment,
      yieldExpression]),
  (.node returnStatement, seq ["return", optional expressions]),
  (.node deleteStatement, seq ["del", expressions]),
  (.node raiseStatement,
    seq ["raise", optional expressions, optional (seq ["from", expression])]),
  (.node passStatement, leftward 0 "pass"),
  (.node breakStatement, leftward 0 "break"),
  (.node continueStatement, leftward 0 "continue"),
  (.node globalStatement, seq ["global", commaList identifier]),
  (.node nonlocalStatement, seq ["nonlocal", commaList identifier]),
  (.node execStatement,
    seq ["exec", oneOf [string, identifier], optional (seq ["in", commaList expression])]),
  (.node typeAliasStatement, .weigh 1 (seq ["type", typeExpression, "=", typeExpression])),
  (.node assignment, seq [role .left target, oneOf [
    seq ["=", rightHandSide],
    seq [":", typeExpression],
    seq [":", typeExpression, "=", rightHandSide]]]),
  (.node augmentedAssignment, seq [role .left target,
    oneOf ["+=", "-=", "*=", "/=", "@=", "//=", "%=", "**=", ">>=", "<<=", "&=", "^=", "|="],
    rightHandSide]),
  (rightHandSide,
    oneOf [expression, expressionList, assignment, augmentedAssignment, patternList,
      yieldExpression])]

private def compoundStatementRules : List (Phrase × PythonRule) := [
  (.node block, seq [many statement, dedent]),
  (.node ifStatement,
    seq ["if", expression, ":", suite, many elifClause, optional elseClause]),
  (.node elifClause, seq ["elif", expression, ":", suite]),
  (.node elseClause, seq ["else", ":", suite]),
  (.node matchStatement, seq ["match", commaListEnding expression, ":", shownAs block matchBlock]),
  (matchBlock, oneOf [seq [indent, many caseClause, dedent], newline]),
  (.node caseClause,
    seq ["case", commaListEnding casePattern, optional ifClause, ":", suite]),
  (.node forStatement,
    seq [optional "async", "for", role .left target, "in", expressions, ":", suite,
      optional elseClause]),
  (.node whileStatement, seq ["while", expression, ":", suite, optional elseClause]),
  (.node tryStatement, seq ["try", ":", suite, oneOf [
    seq [many1 exceptClause, optional elseClause, optional finallyClause],
    seq [many1 exceptGroupClause, optional elseClause, optional finallyClause],
    finallyClause]]),
  (.node exceptClause,
    seq ["except",
      optional (seq [expression, optional (seq [oneOf ["as", ","], role .alias expression])]),
      ":", suite]),
  (.node exceptGroupClause,
    seq ["except*", expression, optional (seq ["as", expression]), ":", suite]),
  (.node finallyClause, seq ["finally", ":", suite]),
  (.node withStatement, seq [optional "async", "with", withClause, ":", suite]),
  (.node withClause,
    oneOf [commaListEnding withItem, seq ["(", commaListEnding withItem, ")"]]),
  (.node withItem, .weigh 1 expression),
  (.node functionDefinition,
    seq [optional "async", "def", role .name identifier, optional typeParameter,
      role .parameters parameters, optional (seq ["->", role .returnType typeExpression]),
      ":", role .body suite]),
  (.node classDefinition,
    seq ["class", identifier, optional typeParameter, optional argumentList, ":", suite]),
  (.node decoratedDefinition, seq [many1 decorator, oneOf [classDefinition, functionDefinition]]),
  (.node decorator, seq ["@", expression, newline])]

/-! ## Patterns and parameters -/

private def casePatternRules : List (Phrase × PythonRule) := [
  (.node casePattern,
    level 1 (oneOf [shownAs asPattern asCasePattern, keywordPattern, simpleCasePattern])),
  (simpleCasePattern, level 1 (oneOf [classPattern, splatPattern, unionPattern,
    shownAs listPattern listCasePattern, shownAs tuplePattern tupleCasePattern, dictPattern,
    string, concatenatedString, trueLiteral, falseLiteral, noneLiteral,
    seq [optional "-", oneOf [integerLiteral, floatLiteral]], complexPattern, dottedName, "_"])),
  (asCasePattern, seq [casePattern, "as", identifier]),
  (.node unionPattern,
    rightward 0 (seq [simpleCasePattern, many1 (leftward 0 (seq ["|", simpleCasePattern]))])),
  (listCasePattern, seq ["[", optional (commaListEnding casePattern), "]"]),
  (tupleCasePattern, seq ["(", optional (commaListEnding casePattern), ")"]),
  (.node dictPattern,
    seq ["\x7b", optional (commaListEnding (oneOf [entryPattern, splatPattern])), "\x7d"]),
  (entryPattern, seq [simpleCasePattern, ":", casePattern]),
  (.node keywordPattern, seq [identifier, "=", simpleCasePattern]),
  (.node splatPattern, level 1 (seq [oneOf ["*", "**"], oneOf [identifier, "_"]])),
  (.node classPattern, seq [dottedName, "(", optional (commaListEnding casePattern), ")"]),
  (.node complexPattern,
    level 1 (seq [optional "-", oneOf [integerLiteral, floatLiteral], oneOf ["+", "-"],
      oneOf [integerLiteral, floatLiteral]]))]

private def patternRules : List (Phrase × PythonRule) := [
  (pattern,
    oneOf [identifier, softKeyword, subscript, attributeAccess, listSplatPattern, tuplePattern,
      listPattern]),
  (patterns, commaListEnding pattern),
  (.node patternList,
    seq [pattern, oneOf [",", seq [many1 (seq [",", pattern]), optional ","]]]),
  (.node tuplePattern, seq ["(", optional patterns, ")"]),
  (.node listPattern, seq ["[", optional patterns, "]"]),
  (.node listSplatPattern, seq ["*", starred]),
  (.node dictionarySplatPattern, seq ["**", starred]),
  (.node asPattern,
    leftward 0 (seq [expression, "as", role .alias (shownAs asPatternTarget expression)])),
  (.node parameters, seq ["(", optional parameterList, ")"]),
  (.node lambdaParameters, parameterList),
  (parameterList, commaListEnding parameter),
  (parameter,
    oneOf [identifier, typedParameter, defaultParameter, typedDefaultParameter, listSplatPattern,
      tuplePattern, keywordSeparator, positionalSeparator, dictionarySplatPattern]),
  (.node defaultParameter, seq [role .name (oneOf [identifier, tuplePattern]), "=", expression]),
  (.node typedDefaultParameter,
    level (-1) (seq [role .name identifier, ":", typeExpression, "=", expression])),
  (.node typedParameter,
    level (-1)
      (seq [oneOf [identifier, listSplatPattern, dictionarySplatPattern], ":", typeExpression])),
  (.node keywordSeparator, "*"),
  (.node positionalSeparator, "/")]

/-! ## Types -/

private def typeRules : List (Phrase × PythonRule) := [
  (.node typeParameter, seq ["[", commaListEnding typeExpression, "]"]),
  (.node typeExpression,
    oneOf [level 1 expression, splatType, genericType, unionType, constrainedType, memberType]),
  (.node splatType, level 1 (seq [oneOf ["*", "**"], identifier])),
  (.node genericType, level 1 (seq [oneOf [identifier, shownAs identifier "type"], typeParameter])),
  (.node unionType, leftward 0 (seq [typeExpression, "|", typeExpression])),
  (.node constrainedType, rightward 0 (seq [typeExpression, ":", typeExpression])),
  (.node memberType, seq [typeExpression, ".", identifier])]

/-! ## Expressions -/

/-- A binary operator with its level. -/
private def binary (side : Int → PythonRule → PythonRule) (n : Int) (operator : String) : PythonRule :=
  side n (seq [primary, operator, primary])

private def operatorRules : List (Phrase × PythonRule) := [
  (expression,
    oneOf [comparisonOperator, notOperator, booleanOperator, lambda, primary,
      conditionalExpression, namedExpression, asPattern]),
  (.node namedExpression, seq [role .name namedTarget, ":=", expression]),
  (namedTarget, oneOf [identifier, softKeyword]),
  (.node conditionalExpression,
    rightward (-1) (seq [expression, "if", expression, "else", expression])),
  (.node lambda,
    level (-2) (seq ["lambda", optional (role .parameters lambdaParameters), ":", expression])),
  (.node lambdaWithinForInClause,
    seq ["lambda", optional (role .parameters lambdaParameters), ":", forSource]),
  (.node booleanOperator, oneOf [
    leftward 11 (seq [expression, "and", expression]),
    leftward 10 (seq [expression, "or", expression])]),
  (.node notOperator, level 12 (seq ["not", expression])),
  (.node comparisonOperator,
    leftward 13 (seq [primary, many1 (seq [
      oneOf ["<", "<=", "==", "!=", ">=", ">", "<>", "in", notIn, "is",
        isNot], primary])])),
  (notIn, seq ["not", "in"]),
  (isNot, seq ["is", "not"]),
  (.node binaryOperator, oneOf [
    binary leftward 14 "|", binary leftward 15 "&", binary leftward 16 "^",
    binary leftward 17 "<<", binary leftward 17 ">>", binary leftward 18 "+",
    binary leftward 18 "-", binary leftward 19 "*", binary leftward 19 "@",
    binary leftward 19 "/", binary leftward 19 "%", binary leftward 19 "//",
    binary rightward 21 "**"]),
  (.node unaryOperator, level 20 (seq [oneOf ["+", "-", "~"], primary])),
  (.node await, level 20 (seq ["await", primary])),
  (.node yieldExpression,
    rightward 0 (seq ["yield", oneOf [seq ["from", expression], optional expressions]])),
  (.node expressionList,
    rightward 0
      (seq [expression, oneOf [",", seq [many1 (seq [",", expression]), optional ","]]]))]

private def primaryRules : List (Phrase × PythonRule) := [
  (primary, oneOf [await, binaryOperator, identifier, softKeyword, string, concatenatedString,
    integerLiteral, floatLiteral, trueLiteral, falseLiteral, noneLiteral, unaryOperator,
    attributeAccess, subscript, call, list, listComprehension, dictionary, dictionaryComprehension,
    set, setComprehension, tuple, parenthesizedExpression, generatorExpression, ellipsis,
    shownAs listSplat listSplatPattern]),
  (.node attributeAccess, level 22 (seq [primary, ".", identifier])),
  (.node subscript, level 22 (seq [primary, "[", commaListEnding (oneOf [expression, slice]), "]"])),
  (.node slice,
    seq [optional expression, ":", optional expression,
      optional (seq [":", optional expression])]),
  (.node call, level 22 (seq [primary, oneOf [generatorExpression, argumentList]])),
  (.node argumentList,
    seq ["(",
      optional (commaList (oneOf [expression, listSplat, dictionarySplat,
        shownAs parenthesizedExpression parenthesizedListSplat, keywordArgument])),
      optional ",", ")"]),
  (.node keywordArgument, seq [oneOf [identifier, softKeyword], "=", expression]),
  (.node listSplat, seq ["*", expression]),
  (.node dictionarySplat, seq ["**", expression]),
  (.node parenthesizedListSplat,
    level 1 (seq ["(",
      oneOf [shownAs parenthesizedExpression parenthesizedListSplat, listSplat], ")"])),
  (.node parenthesizedExpression, level 1 (seq ["(", oneOf [expression, yieldExpression], ")"])),
  (elements,
    commaListEnding (oneOf [expression, yieldExpression, listSplat, parenthesizedListSplat])),
  (.node list, seq ["[", optional elements, "]"]),
  (.node set, seq ["\x7b", elements, "\x7d"]),
  (.node tuple, seq ["(", optional elements, ")"]),
  (.node dictionary,
    seq ["\x7b", optional (commaList (oneOf [entry, dictionarySplat])), optional ",", "\x7d"]),
  (.node entry, seq [expression, ":", expression])]

private def comprehensionRules : List (Phrase × PythonRule) := [
  (.node listComprehension, seq ["[", expression, comprehensionClauses, "]"]),
  (.node dictionaryComprehension, seq ["\x7b", entry, comprehensionClauses, "\x7d"]),
  (.node setComprehension, seq ["\x7b", expression, comprehensionClauses, "\x7d"]),
  (.node generatorExpression, seq ["(", expression, comprehensionClauses, ")"]),
  (comprehensionClauses, seq [forInClause, many (oneOf [forInClause, ifClause])]),
  (.node forInClause,
    leftward 0 (seq [optional "async", "for", role .left target, "in",
      commaListEnding forSource])),
  (forSource, oneOf [expression, shownAs lambda lambdaWithinForInClause]),
  (.node ifClause, seq ["if", expression])]

private def stringRules : List (Phrase × PythonRule) := [
  (.node concatenatedString, seq [string, many1 string]),
  (.node string, seq [stringStart, many (oneOf [interpolation, stringContent]), stringEnd]),
  (.node stringContent,
    rightward 0 (many1 (oneOf [escapeInterpolation, escapeSequence, loneBackslash, plainText]))),
  (.node interpolation,
    seq ["\x7b", fieldExpression, optional "=", optional typeConversion,
      optional formatSpecifier, "\x7d"]),
  (fieldExpression, oneOf [expression, expressionList, patternList, yieldExpression]),
  (.node formatSpecifier,
    seq [":", many (oneOf [formatText, shownAs formatExpression interpolation])])]

/-! ## The grammar -/

/-- The grammar of Python sources. -/
def pythonGrammar : PullGate.Grammar.RuleSet Token Phrase Mark where
  start := .node program
  rules := simpleStatementRules ++ compoundStatementRules ++ casePatternRules ++ patternRules ++
    typeRules ++ operatorRules ++ primaryRules ++ comprehensionRules ++ stringRules

end PullGate.Python
