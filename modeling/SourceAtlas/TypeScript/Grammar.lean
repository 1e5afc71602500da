import SourceAtlas.TypeScript.Lexeme

/-!
# The grammar of TypeScript

The phrases of TypeScript without JSX. Expressions and types that may end a statement without a
semicolon are told apart from those inside brackets by an `Ending`.

* `Ending`: where a semicolon may be left out after an expression or type;
* `Rule`: the rules that refer to each other;
* `Rule.phrase`: what each rule says.
-/

namespace SourceAtlas.TypeScript

open Grammar (Phrase)
open Grammar.Phrase

/-- Whether a semicolon may be left out after a phrase: never, after a type, or after an
expression. -/
inductive Ending where
  | never
  | afterType
  | afterExpression
deriving DecidableEq, Hashable

/-- The rules of the grammar. -/
inductive Rule where
  | program
  | statement
  | block
  | declaration
  | ambientDeclaration
  | exportStatement
  | importStatement
  | functionDeclaration
  | classDeclaration
  | classBody
  | classMember
  | decorator
  | interfaceDeclaration
  | enumDeclaration
  | variableDeclaration
  | forHeader
  | switchBody
  | pattern
  | destructuring
  | formalParameters
  | callSignature (ending : Ending)
  | propertyName
  | template
  | object
  | array
  | arguments
  | classExpression
  | functionExpression
  | parenthesized
  | expressions (ending : Ending)
  | expression (ending : Ending)
  | ternary (ending : Ending)
  | binary (ending : Ending)
  | unary (ending : Ending)
  | access (ending : Ending)
  | construction (ending : Ending)
  | arrow (ending : Ending)
  | primary (ending : Ending)
  | typeArguments
  | typeParameters
  | typeMark (ending : Ending)
  | type (ending : Ending)
  | unionType (ending : Ending)
  | typeOperand (ending : Ending)
  | arrayType (ending : Ending)
  | primaryType (ending : Ending)
  | objectType
  | typeMember
deriving DecidableEq, Hashable

/-! ## Lexemes -/

/-- A phrase of the grammar. -/
abbrev P := Phrase Rule

/-- A word that stands for itself. -/
def word (w : String) : P := leaf w false (keyword w)

/-- A mark that stands for itself. -/
def tok (s : String) : P := leaf s false (mark s [])

/-- A mark that is not the start of a longer one. -/
def tokNot (s : String) (longer : List String) : P := leaf s false (mark s longer)

def braceOpen : P := tok "\x7b"
def braceClose : P := tok "\x7d"
def name : P := leaf "identifier" true identifier
def anyName : P := leaf "identifier" true wordEnd?
def typeName : P := leaf "type_identifier" true identifier
def propertyWord : P := leaf "property_identifier" true wordEnd?
def privateWord : P := leaf "private_property_identifier" true privateName
def numberLiteral : P := leaf "number" true number

/-- The end of a statement. -/
def semicolon : P := alt [check (endsHere false false), tok ";"]

/-- The end of a function signature: not before a body on the next line. -/
def signatureEnd : P := alt [check (endsHere false true), tok ";"]

/-- The phrase goes on: it does not end here for want of a semicolon. -/
def goesOn : Ending → P
  | .never => seq []
  | .afterType => check fun src pos => !endsHere false false src pos
  | .afterExpression => check fun src pos => !endsHere true false src pos

/-- A string literal between two marks. -/
def quotedString (quote : String) (octet : UInt8) : P :=
  node "string" (seq [tok quote,
    many (alt [inner "string_fragment" true (stringFragment octet),
      inner "escape_sequence" true escape]),
    inner quote false (mark quote [])])

def stringLiteral : P := alt [quotedString "\"" 34, quotedString "'" 39]

def commaSeparated (p : P) : P := separated (tok ",") p

/-- Items between commas, some of which may be missing. -/
def sparse (p : P) : P := many (alt [tok ",", p])

/-! ## Modifiers -/

/-- A word that modifies the name after it. -/
def modifier (w : String) : P :=
  seq [word w, check fun src pos => beforeName src pos && !endsHere false false src pos]

def accessibility : P :=
  node "accessibility_modifier" (alt [modifier "public", modifier "private", modifier "protected"])

def overrideModifier : P := node "override_modifier" (modifier "override")

/-- The modifiers of a class member. -/
def memberModifiers : P :=
  many (alt [accessibility, overrideModifier, modifier "static", modifier "readonly",
    modifier "abstract", modifier "declare", modifier "accessor"])

/-- The modifiers of a method and the mark of a generator. -/
def methodModifiers : P :=
  seq [memberModifiers, opt (modifier "async"), opt (alt [modifier "get", modifier "set", tok "*"])]

/-- A word that modifies the parameter after it. -/
def parameterModifier (w : String) : P := seq [word w, check beforePattern]

/-! ## Shared parts -/

def initializer (e : Ending) : P := seq [tokNot "=" ["=", ">"],
  field "value" (rule (.expression e))]

def optionalTypeMark (e : Ending) : P := opt (field "type" (rule (.typeMark e)))

/-- The signature and the body of a function. -/
def functionRest : P := seq [rule (.callSignature .afterType), field "body" (rule .block)]

def optionalTypeParameters : P := opt (field "type_parameters" (rule .typeParameters))

def fromClause : P := seq [word "from", field "source" stringLiteral]

/-- The name of a module or namespace, perhaps of several parts. -/
def qualifiedName : P :=
  grow name [("nested_identifier", some "object", seq [tokNot "." ["."],
    field "property" propertyWord])]

/-- The name of a type, perhaps in a namespace. -/
def qualifiedType : P :=
  alt [node "nested_type_identifier" (seq [field "module" (grow anyName [("nested_identifier",
    some "object",
      seq [tok ".", field "property" propertyWord, check fun src pos =>
        Grammar.octet src (next src pos) = 46])]),
      tokNot "." ["."], field "name" (leaf "type_identifier" true wordEnd?)]),
    typeName]

def genericType : P :=
  node "generic_type" (seq [field "name" qualifiedType,
    field "type_arguments" (rule .typeArguments)])

/-! ## Modules -/

def moduleExportName : P := alt [anyName, stringLiteral]

def importSpecifier : P :=
  node "import_specifier" (alt [
    seq [alt [word "type", word "typeof"],
      alt [seq [field "name" moduleExportName, word "as", field "alias" anyName],
        field "name" anyName],
      check fun src pos => let c := Grammar.octet src (next src pos); c = 44 || c = 125],
    seq [field "name" moduleExportName, word "as", field "alias" anyName],
    field "name" anyName])

def namedImports : P :=
  node "named_imports" (seq [braceOpen, sparse importSpecifier, braceClose])

def namespaceImport : P := node "namespace_import" (seq [tok "*", word "as", name])

def importClause : P :=
  node "import_clause" (alt [namespaceImport, namedImports,
    seq [name, opt (seq [tok ",", alt [namespaceImport, namedImports]])]])

def importAttribute : P :=
  opt (node "import_attribute" (seq [alt [word "with", word "assert"], rule .object]))

def importRest : P :=
  seq [alt [
      node "import_require_clause" (seq [name, tok "=", word "require", tok "(",
        field "source" stringLiteral,
        tok ")"]),
      seq [importClause, fromClause],
      field "source" stringLiteral],
    importAttribute, semicolon]

/-- A name for a member of a namespace. -/
def importAlias : P :=
  node "import_alias" (seq [word "import", name, tok "=", qualifiedName, semicolon])

def exportSpecifier : P :=
  node "export_specifier" (alt [
    seq [alt [word "type", word "typeof"],
      field "name" moduleExportName, opt (seq [word "as", field "alias" moduleExportName]),
      check fun src pos => let c := Grammar.octet src (next src pos); c = 44 || c = 125],
    seq [field "name" moduleExportName, opt (seq [word "as", field "alias" moduleExportName])]])

def exportClause : P := node "export_clause" (seq [braceOpen, sparse exportSpecifier, braceClose])

def exportStatement : P :=
  node "export_statement" (alt [
    seq [word "export", tok "*", fromClause, opt importAttribute, semicolon],
    seq [word "export", node "namespace_export" (seq [tok "*", word "as", moduleExportName]),
      fromClause,
      opt importAttribute, semicolon],
    seq [word "export", exportClause, fromClause, opt importAttribute, semicolon],
    seq [word "export", exportClause, semicolon],
    seq [word "export", word "type", exportClause, opt fromClause, semicolon],
    seq [word "export", word "type", alt [
      node "namespace_export" (seq [tok "*", word "as", moduleExportName]), tok "*"], fromClause,
        semicolon],
    seq [word "export", tokNot "=" ["="], rule (.expression .afterExpression), semicolon],
    seq [word "export", word "as", word "namespace", name, semicolon],
    seq [many (field "decorator" (rule .decorator)), word "export", alt [
      seq [word "default", alt [
        field "declaration" (rule .declaration),
        seq [field "value" (rule (.expression .afterExpression)), semicolon]]],
      field "declaration" (rule .declaration)]]])

/-! ## Statements -/

def condition : P := rule .parenthesized

def optionalLabel : P :=
  opt (seq [goesOn .afterType, field "label" (leaf "statement_identifier" true identifier)])

def variableDeclarator (e : Ending) : P :=
  node "variable_declarator" (seq [
    field "name" (alt [rule .destructuring, name]),
    opt (tokNot "!" ["="]),
    optionalTypeMark .afterType,
    opt (initializer e)])

def variableDeclarators : P := commaSeparated (variableDeclarator .afterExpression)

def lexicalKind : P := field "kind" (alt [word "let", word "const"])

def catchClause : P :=
  node "catch_clause" (seq [word "catch",
    opt (seq [tok "(", field "parameter" (alt [rule .destructuring, name]), optionalTypeMark .never,
      tok ")"]),
    field "body" (rule .block)])

def statements : List P := [
  rule .exportStatement,
  rule .importStatement,
  rule .declaration,
  rule .block,
  node "debugger_statement" (seq [word "debugger", semicolon]),
  node "if_statement" (seq [word "if", field "condition" condition,
    field "consequence" (rule .statement),
    opt (field "alternative" (node "else_clause" (seq [word "else", rule .statement])))]),
  node "switch_statement" (seq [word "switch", field "value" condition,
    field "body" (rule .switchBody)]),
  node "for_in_statement" (seq [word "for", opt (word "await"), rule .forHeader,
    field "body" (rule .statement)]),
  node "for_statement" (seq [word "for", tok "(",
    field "initializer" (alt [rule .variableDeclaration, node "empty_statement" (tok ";"),
      seq [rule (.expressions .never), tok ";"]]),
    field "condition" (alt [node "empty_statement" (tok ";"), seq [rule (.expressions .never),
      tok ";"]]),
    field "increment" (opt (rule (.expressions .never))), tok ")",
    field "body" (rule .statement)]),
  node "while_statement" (seq [word "while", field "condition" condition,
    field "body" (rule .statement)]),
  node "do_statement" (seq [word "do", field "body" (rule .statement), word "while",
    field "condition" condition, opt semicolon]),
  node "try_statement" (seq [word "try", field "body" (rule .block),
    opt (field "handler" catchClause),
    opt (field "finalizer" (node "finally_clause" (seq [word "finally",
      field "body" (rule .block)])))]),
  node "with_statement" (seq [word "with", field "object" condition,
    field "body" (rule .statement)]),
  node "break_statement" (seq [word "break", optionalLabel, semicolon]),
  node "continue_statement" (seq [word "continue", optionalLabel, semicolon]),
  node "return_statement" (seq [word "return",
    opt (seq [goesOn .afterType, rule (.expressions .afterExpression)]), semicolon]),
  node "throw_statement" (seq [word "throw", rule (.expressions .afterExpression), semicolon]),
  node "empty_statement" (tok ";"),
  node "labeled_statement" (seq [field "label" (leaf "statement_identifier" true identifier),
    tok ":",
    field "body" (rule .statement)]),
  leaf "html_comment" true fun src pos =>
    if standsAt src (ascii "<!--") pos || standsAt src (ascii "-->") pos then
      some (lineEnd src pos)
    else none,
  node "expression_statement" (seq [rule (.expressions .afterExpression), semicolon])]

/-! ## Declarations -/

def moduleRest : P :=
  seq [field "name" (alt [stringLiteral, qualifiedName]), opt (field "body" (rule .block))]

def declarations : List P := [
  rule .functionDeclaration,
  rule .classDeclaration,
  rule .enumDeclaration,
  rule .variableDeclaration,
  rule .interfaceDeclaration,
  node "type_alias_declaration" (seq [word "type", field "name" typeName, optionalTypeParameters,
    tok "=",
    field "value" (rule (.type .afterType)), semicolon]),
  node "module" (seq [word "module", goesOn .afterType, moduleRest]),
  node "internal_module" (seq [word "namespace", goesOn .afterType, moduleRest]),
  importAlias,
  rule .ambientDeclaration]

def decorators : P := many (field "decorator" (rule .decorator))

def heritage : P :=
  let implementsClause :=
    node "implements_clause" (seq [word "implements", commaSeparated (rule (.type .never))])
  let extendsClause := node "extends_clause" (seq [word "extends", commaSeparated (seq [
    field "value" (rule (.access .never)), opt (field "type_arguments" (rule .typeArguments))])])
  opt (node "class_heritage" (alt [seq [extendsClause, opt implementsClause], implementsClause]))

def classRest : P := seq [optionalTypeParameters, heritage, field "body" (rule .classBody)]

/-- A name that is not the start of the heritage of a class without a name. -/
def className : P :=
  seq [check fun src pos => (keyword "implements" src (next src pos)).isNone, field "name" typeName]

def indexSignature : P :=
  node "index_signature" (seq [
    opt (seq [opt (field "sign" (alt [tok "-", tok "+"])), word "readonly"]), tok "[",
    alt [
      node "mapped_type_clause" (seq [field "name" typeName, word "in",
        field "type" (rule (.type .never)),
        opt (seq [word "as", field "alias" (rule (.type .never))])]),
      seq [field "name" anyName, tok ":", field "index_type" (rule (.type .never))]],
    tok "]",
    field "type" (alt [
      rule (.typeMark .afterType),
      node "omitting_type_annotation" (seq [tok "-?:", rule (.type .afterType)]),
      node "adding_type_annotation" (seq [tok "+?:", rule (.type .afterType)]),
      node "opting_type_annotation" (seq [tok "?:", rule (.type .afterType)])])])

def classMembers : List P :=
  let methodRest := seq [field "name" (rule .propertyName), opt (tok "?"),
    rule (.callSignature .afterType)]
  let methodSignature := node "method_signature" (seq [methodModifiers, methodRest])
  [ seq [decorators,
      node "method_definition" (seq [methodModifiers, methodRest, field "body" (rule .block)]),
      opt (tok ";")],
    node "class_static_block" (seq [word "static", field "body" (rule .block)]),
    seq [alt [
        node "abstract_method_signature" (seq [
          many (alt [accessibility, overrideModifier, modifier "static"]), modifier "abstract",
          methodModifiers, methodRest]),
        methodSignature],
      alt [signatureEnd, tok ","]],
    seq [alt [
        indexSignature,
        node "public_field_definition" (seq [decorators, memberModifiers,
          field "name" (rule .propertyName),
          opt (alt [tok "?", tokNot "!" ["="]]), optionalTypeMark .afterType,
          opt (initializer .afterExpression)])],
      alt [semicolon, tok ","]],
    tok ";"]

/-- A decorator: names with points between them, perhaps called, or the like in parentheses. -/
def decoratorPhrase : P :=
  let path := grow name [("member_expression", some "object",
    seq [tokNot "." ["."], field "property" propertyWord])]
  let call := node "call_expression" (seq [field "function" path,
    opt (field "type_arguments" (rule .typeArguments)), field "arguments" (rule .arguments)])
  node "decorator" (seq [tok "@", alt [call, path,
    node "parenthesized_expression" (seq [tok "(", alt [seq [call, tok ")"], seq [path,
      tok ")"]]])]])

/-! ## Parameters and patterns -/

def parameterStart : P :=
  seq [decorators,
    many (alt [
      node "accessibility_modifier" (alt [parameterModifier "public", parameterModifier "private",
        parameterModifier "protected"]),
      node "override_modifier" (parameterModifier "override"),
      parameterModifier "readonly"]),
    field "pattern" (alt [leaf "this" true (keyword "this"), rule .pattern])]

def parameter : P :=
  alt [
    node "optional_parameter" (seq [parameterStart, tok "?", optionalTypeMark .never,
      opt (initializer .never)]),
    node "required_parameter" (seq [parameterStart, optionalTypeMark .never,
      opt (initializer .never)])]

/-- A pattern with a default. -/
def patternWithDefault : P :=
  alt [
    node "assignment_pattern" (seq [field "left" (rule .pattern), tokNot "=" ["=", ">"],
      field "right" (rule (.expression .never))]),
    rule .pattern]

def objectPattern : P :=
  let short := leaf "shorthand_property_identifier_pattern" true identifier
  node "object_pattern" (seq [braceOpen, sparse (alt [
    node "pair_pattern" (seq [field "key" (rule .propertyName), tok ":",
      field "value" patternWithDefault]),
    node "rest_pattern" (seq [tok "...", rule .pattern]),
    node "object_assignment_pattern" (seq [field "left" short, tokNot "=" ["=", ">"],
      field "right" (rule (.expression .never))]),
    short]), braceClose])

def arrayPattern : P :=
  node "array_pattern" (seq [tok "[", sparse patternWithDefault, tok "]"])

/-! ## Literals -/

def templatePhrase : P :=
  node "template_string" (seq [tok "\x60",
    many (alt [inner "string_fragment" true templateChars, inner "escape_sequence" true escape,
      node "template_substitution" (seq [inner "$\x7b" false (mark "$\x7b" []),
        rule (.expressions .never), braceClose])]),
    inner "\x60" false (mark "\x60" [])])

def regex : P :=
  node "regex" (seq [tokNot "/" ["/", "*"],
    field "pattern" (inner "regex_pattern" true regexPattern),
    inner "/" false (mark "/" []), opt (field "flags" (inner "regex_flags" true regexFlags))])

def spread : P := node "spread_element" (seq [tok "...", rule (.expression .never)])

def objectPhrase : P :=
  node "object" (seq [braceOpen, sparse (alt [
    node "pair" (seq [field "key" (rule .propertyName), tok ":",
      field "value" (rule (.expression .never))]),
    spread,
    node "method_definition" (seq [methodModifiers, field "name" (rule .propertyName),
      opt (tok "?"),
      functionRest]),
    node "assignment_expression" (seq [
      field "left" (leaf "shorthand_property_identifier" true identifier), initializer .never]),
    leaf "shorthand_property_identifier" true wordEnd?]), braceClose])

/-! ## Expressions -/

def unaryOperator : P :=
  alt [tokNot "!" ["="], tok "~", tokNot "-" ["-", "="], tokNot "+" ["+", "="],
    word "typeof", word "void", word "delete"]

def updateOperator : P := alt [tok "++", tok "--"]

def binaryOperator : P :=
  alt [
    tokNot "&&" ["="], tokNot "||" ["="], tokNot "??" ["="],
    tokNot ">>>" ["="], tokNot ">>" [">", "="], tokNot "<<" ["="],
    tok "===", tok "!==", tokNot "==" ["="], tokNot "!=" ["="],
    tok "<=", tok ">=", tokNot "<" ["<"], tokNot ">" [">"],
    tokNot "&" ["&", "="], tokNot "|" ["|", "="], tokNot "^" ["="],
    tokNot "**" ["="], tokNot "*" ["*", "="], tokNot "/" ["=", "/", "*"], tokNot "%" ["="],
    tokNot "+" ["+", "="], tokNot "-" ["-", "="],
    word "instanceof", word "in"]

def assignmentOperator : P :=
  alt (["+=", "-=", "*=", "/=", "%=", "^=", "&=", "|=", ">>=", ">>>=", "<<=", "**=", "&&=", "||=",
    "??="].map tok)

def optionalChain : P :=
  field "optional_chain" (node "optional_chain" (leaf "?." false optionalMark))

def assignment (e : Ending) : P :=
  alt [
    node "assignment_expression" (seq [opt (seq [word "using", check beforePattern]),
      field "left" (alt [rule .destructuring, rule (.access e)]), tokNot "=" ["=", ">"],
      field "right" (rule (.expression e))]),
    node "augmented_assignment_expression" (seq [field "left" (rule (.access e)),
      field "operator" assignmentOperator, field "right" (rule (.expression e))])]

def yieldExpression (e : Ending) : P :=
  node "yield_expression" (seq [word "yield", alt [
    seq [tok "*", rule (.expression e)],
    seq [goesOn (if e = .never then .never else .afterType), rule (.expression e)],
    seq []]])

/-- The accesses that need no call: members, items and assertions of presence. -/
def memberTails (e : Ending) : List (String × Option String × P) := [
  ("member_expression", some "object", seq [goesOn e, alt [tokNot "." ["."], optionalChain],
    field "property" (alt [privateWord, propertyWord])]),
  ("subscript_expression", some "object", seq [goesOn e, opt optionalChain, tok "[",
    field "index" (rule (.expressions .never)), tok "]"]),
  ("non_null_expression", none, seq [goesOn e, tokNot "!" ["="]])]

def accessTails (e : Ending) : List (String × Option String × P) :=
  memberTails e ++ [
  ("call_expression", some "function", seq [goesOn e,
    opt (field "type_arguments" (rule .typeArguments)),
    field "arguments" (rule .arguments)]),
  ("call_expression", some "function", seq [goesOn e, optionalChain,
    opt (field "type_arguments" (rule .typeArguments)), field "arguments" (rule .arguments)]),
  ("call_expression", some "function", seq [goesOn e, field "arguments" (rule .template)]),
  ("instantiation_expression", none, seq [goesOn e, field "type_arguments" (rule .typeArguments),
    check endsInstantiation])]

def newExpression (e : Ending) : P :=
  node "new_expression" (seq [word "new", field "constructor" (rule (.construction e)),
    opt (field "type_arguments" (rule .typeArguments)),
    opt (seq [goesOn e, field "arguments" (rule .arguments)])])

def metaProperty : P :=
  node "meta_property" (alt [seq [word "new", tok ".", word "target"], seq [word "import", tok ".",
    word "meta"]])

def primaries : List P := [
  rule .parenthesized,
  rule .functionExpression,
  rule .classExpression,
  rule .template,
  stringLiteral,
  numberLiteral,
  rule .object,
  rule .array,
  regex,
  metaProperty,
  leaf "this" true (keyword "this"),
  leaf "super" true (keyword "super"),
  leaf "true" true (keyword "true"),
  leaf "false" true (keyword "false"),
  leaf "null" true (keyword "null"),
  leaf "undefined" true (keyword "undefined"),
  node "import" (word "import"),
  privateWord,
  name]

/-! ## Types -/

def returnTypeMark (e : Ending) : P :=
  let predicate := node "type_predicate" (seq [
    field "name" (alt [leaf "this" true (keyword "this"), name]), word "is",
      field "type" (rule (.type e))])
  field "return_type" (alt [
    node "asserts_annotation" (seq [tok ":", node "asserts" (seq [word "asserts",
      alt [predicate, leaf "this" true (keyword "this"), name]])]),
    node "type_predicate_annotation" (seq [tok ":", predicate]),
    rule (.typeMark e)])

def functionResult (e : Ending) : P :=
  let predicate := node "type_predicate" (seq [
    field "name" (alt [leaf "this" true (keyword "this"), name]), word "is",
      field "type" (rule (.type e))])
  field "return_type" (alt [
    node "asserts" (seq [word "asserts", alt [predicate, leaf "this" true (keyword "this"), name]]),
    predicate,
    rule (.type e)])

def functionType (e : Ending) : P :=
  node "function_type" (seq [optionalTypeParameters, field "parameters" (rule .formalParameters),
    tok "=>", functionResult e])

def constructorType (e : Ending) : P :=
  node "constructor_type" (seq [opt (word "abstract"), word "new", optionalTypeParameters,
    field "parameters" (rule .formalParameters), tok "=>", field "type" (rule (.type e))])

def tupleMember : P :=
  alt [
    node "required_parameter" (seq [field "name" (alt [
      node "rest_pattern" (seq [tok "...", anyName]), anyName]),
      field "type" (rule (.typeMark .never))]),
    node "optional_parameter" (seq [field "name" anyName, tok "?",
      field "type" (rule (.typeMark .never))]),
    node "rest_type" (seq [tok "...", rule (.type .never)]),
    node "optional_type" (seq [rule (.type .never), tok "?"]),
    rule (.type .never)]

/-- The name of a value inside a type. -/
def typeQueryPath : P :=
  let importCall := node "call_expression" (seq [field "function" (node "import" (word "import")),
    field "arguments" (rule .arguments)])
  grow (alt [importCall, leaf "this" true (keyword "this"), name]) [
    ("member_expression", some "object", seq [tokNot "." ["."],
      field "property" (alt [privateWord, propertyWord])])]

def typeQuery (e : Ending) : P :=
  node "type_query" (seq [word "typeof", typeQueryPath, opt (seq [goesOn e, rule .typeArguments])])

def importType : P :=
  seq [check fun src pos => (keyword "import" src (next src pos)).isSome, typeQueryPath,
    opt (rule .typeArguments)]

def literalType : P :=
  node "literal_type" (alt [
    node "unary_expression" (seq [field "operator" (alt [tok "-", tok "+"]),
      field "argument" numberLiteral]),
    numberLiteral, stringLiteral,
    leaf "true" true (keyword "true"), leaf "false" true (keyword "false"),
    leaf "null" true (keyword "null"), leaf "undefined" true (keyword "undefined")])

def predefinedType : P :=
  node "predefined_type" (alt ([seq [word "unique", word "symbol"]] ++
    ["any", "number", "boolean", "string", "symbol", "void", "unknown", "never",
      "object"].map word))

def templateType : P :=
  node "template_literal_type" (seq [tok "\x60",
    many (alt [inner "string_fragment" true templateChars, inner "escape_sequence" true escape,
      node "template_type" (seq [inner "$\x7b" false (mark "$\x7b" []), rule (.type .never),
        braceClose])]),
    inner "\x60" false (mark "\x60" [])])

/-- A type name that a point does not follow. -/
def lastName : P := check fun src pos => Grammar.octet src (next src pos) ≠ 46

def primaryTypes (e : Ending) : List P := [
  node "parenthesized_type" (seq [tok "(", rule (.type .never), tok ")"]),
  seq [predefinedType, lastName],
  typeQuery e,
  node "index_type_query" (seq [word "keyof", rule (.typeOperand e)]),
  leaf "this_type" true (keyword "this"),
  literalType,
  templateType,
  rule .objectType,
  node "tuple_type" (seq [tok "[", sparse tupleMember, tok "]"]),
  node "existential_type" (tok "*"),
  importType,
  word "const",
  genericType,
  qualifiedType]

def objectTypeMembers : List P := [
  node "construct_signature" (seq [opt (word "abstract"), word "new", optionalTypeParameters,
    field "parameters" (rule .formalParameters), optionalTypeMark .afterType]),
  node "call_signature" (rule (.callSignature .afterType)),
  indexSignature,
  node "method_signature" (seq [methodModifiers, field "name" (rule .propertyName), opt (tok "?"),
    rule (.callSignature .afterType)]),
  node "property_signature" (seq [memberModifiers, field "name" (rule .propertyName), opt (tok "?"),
    optionalTypeMark .afterType]),
  rule .exportStatement]

/-- The members of an object type in braces. After the last one nothing has to stand. -/
def typeMembers : List P := [
  braceOpen,
  many (alt [seq [rule .typeMember, alt [tok ",", semicolon]], tok ";", tok ","]),
  opt (rule .typeMember),
  braceClose]

def typeParameter : P :=
  node "type_parameter" (seq [
    many (seq [alt [word "const", word "in", word "out"], check beforePattern]),
    field "name" typeName,
    opt (field "constraint" (node "constraint" (seq [alt [word "extends", tok ":"],
      rule (.type .never)]))),
    opt (field "value" (node "default_type" (seq [tok "=", rule (.type .never)])))])

/-! ## The rules -/

/-- What each rule says. -/
def Rule.phrase : Rule → P
  | program => seq [
      opt (leaf "hash_bang_line" true fun src pos =>
        if standsAt src (ascii "#!") pos then some (lineEnd src pos) else none),
      many (rule statement)]
  | statement => alt statements
  | block => node "statement_block" (seq [braceOpen, many (rule statement), braceClose])
  | declaration => alt declarations
  | ambientDeclaration => node "ambient_declaration" (seq [word "declare", alt [
      rule declaration,
      seq [word "global", rule block],
      seq [word "module", tok ".", propertyWord, tok ":", rule (type .afterType), semicolon]]])
  | exportStatement => TypeScript.exportStatement
  | importStatement => node "import_statement" (seq [word "import", alt [
      importRest,
      seq [alt [word "type", word "typeof"], importRest]]])
  | functionDeclaration =>
      let head := seq [opt (word "async"), word "function"]
      let signature := seq [field "name" name, rule (callSignature .afterType)]
      alt [
        node "function_declaration" (seq [head, signature, field "body" (rule block)]),
        node "function_signature" (seq [head, signature, signatureEnd]),
        node "generator_function_declaration" (seq [head, tok "*", signature,
          field "body" (rule block)])]
  | classDeclaration => alt [
      node "class_declaration" (seq [decorators, word "class", className, classRest]),
      node "abstract_class_declaration" (seq [decorators, word "abstract", word "class", className,
        classRest])]
  | classBody => node "class_body" (seq [braceOpen, many (rule classMember), braceClose])
  | classMember => alt classMembers
  | decorator => decoratorPhrase
  | interfaceDeclaration => node "interface_declaration" (seq [word "interface",
    field "name" typeName,
      optionalTypeParameters,
      opt (node "extends_type_clause" (seq [word "extends",
        commaSeparated (field "type" (alt [genericType, qualifiedType]))])),
      field "body" (node "interface_body" (seq typeMembers))])
  | enumDeclaration => node "enum_declaration" (seq [opt (word "const"), word "enum",
    field "name" name,
      field "body" (node "enum_body" (seq [braceOpen, sparse (alt [
        node "enum_assignment" (seq [field "name" (rule propertyName), initializer .never]),
        field "name" (rule propertyName)]), braceClose]))])
  | variableDeclaration => alt [
      node "lexical_declaration" (seq [lexicalKind, variableDeclarators, semicolon]),
      node "variable_declaration" (seq [word "var", variableDeclarators, semicolon])]
  | forHeader => seq [tok "(",
      alt [
        seq [field "kind" (alt [word "let", word "const", word "var"]),
          field "left" (alt [rule destructuring, name]), optionalTypeMark .never,
          opt (initializer .never), field "operator" (alt [word "in", word "of"])],
        seq [field "left" (alt [rule destructuring, rule (access .never)]),
          field "operator" (alt [word "in", word "of"])]],
      field "right" (rule (expressions .never)), tok ")"]
  | switchBody => node "switch_body" (seq [braceOpen, many (alt [
      node "switch_case" (seq [word "case", field "value" (rule (expressions .never)), tok ":",
        field "body" (many (rule statement))]),
      node "switch_default" (seq [word "default", tok ":", field "body" (many (rule statement))])]),
      braceClose])
  | pattern => alt [
      node "rest_pattern" (seq [tok "...", rule pattern]),
      rule destructuring,
      name]
  | destructuring => alt [objectPattern, arrayPattern]
  | formalParameters => node "formal_parameters" (seq [tok "(",
      opt (seq [commaSeparated parameter, opt (tok ",")]), tok ")"])
  | callSignature e => seq [optionalTypeParameters, field "parameters" (rule formalParameters),
      opt (returnTypeMark e)]
  | propertyName => alt [propertyWord, privateWord, stringLiteral, numberLiteral,
      node "computed_property_name" (seq [tok "[", rule (expression .never), tok "]"])]
  | template => templatePhrase
  | object => objectPhrase
  | array => node "array" (seq [tok "[", sparse (alt [spread, rule (expression .never)]), tok "]"])
  | arguments => node "arguments" (seq [tok "(", sparse (alt [spread, rule (expression .never)]),
    tok ")"])
  | classExpression => node "class" (seq [decorators, word "class", opt className, classRest])
  | functionExpression =>
      let head := seq [opt (word "async"), word "function"]
      alt [
        node "function_expression" (seq [head, opt (field "name" name), functionRest]),
        node "generator_function" (seq [head, tok "*", opt (field "name" name), functionRest])]
  | parenthesized => node "parenthesized_expression" (seq [tok "(", rule (expressions .never),
      optionalTypeMark .never, tok ")"])
  | expressions e => alt [
      node "sequence_expression" (seq [rule (expression e),
        oneOrMore (seq [goesOn e, tok ",", rule (expression e)])]),
      rule (expression e)]
  | expression e => alt [yieldExpression e, assignment e, rule (ternary e)]
  | ternary e => alt [
      node "ternary_expression" (seq [field "condition" (rule (binary e)), goesOn e,
        leaf "?" false ternaryMark,
        alt [
          seq [field "consequence" (rule (expression .never)), tok ":"],
          seq [field "consequence" (rule parenthesized), tok ":"]],
        field "alternative" (rule (expression e))]),
      rule (binary e)]
  | binary e => grow (rule (unary e)) [
      ("as_expression", none, seq [goesOn e, word "as", rule (type e)]),
      ("satisfies_expression", none, seq [goesOn e, word "satisfies", rule (type e)]),
      ("binary_expression", some "left", seq [goesOn e, field "operator" binaryOperator,
        field "right" (rule (unary e))])]
  | unary e => alt [
      node "unary_expression" (seq [field "operator" unaryOperator,
        field "argument" (rule (unary e))]),
      node "update_expression" (seq [field "operator" updateOperator,
        field "argument" (rule (unary e))]),
      node "await_expression" (seq [word "await", rule (unary e)]),
      node "type_assertion" (seq [rule typeArguments, rule (unary e)]),
      node "update_expression" (seq [field "argument" (rule (access e)), goesOn e,
        field "operator" updateOperator]),
      rule (access e)]
  | access e => grow (alt [newExpression e, rule (primary e)]) (accessTails e)
  | construction e => grow (alt [newExpression e, rule (primary e)]) (memberTails e)
  | arrow e =>
      let one := field "parameter" name
      node "arrow_function" (seq [
        alt [
          seq [word "async", alt [seq [one, tok "=>"], seq [rule (callSignature .never),
            tok "=>"]]],
          seq [one, tok "=>"],
          seq [rule (callSignature .never), tok "=>"]],
        field "body" (alt [rule block, rule (expression e)])])
  | primary e => alt (rule (arrow e) :: primaries)
  | typeArguments => node "type_arguments" (seq [tokNot "<" ["<"],
    commaSeparated (rule (type .never)),
      opt (tok ","), tok ">"])
  | typeParameters => node "type_parameters" (seq [tok "<", commaSeparated typeParameter,
      opt (tok ","), tok ">"])
  | typeMark e => node "type_annotation" (seq [tok ":", rule (type e)])
  | type e => grow (rule (unionType e)) [
      ("conditional_type", some "left", seq [goesOn e, word "extends",
        field "right" (rule (unionType .never)),
        tok "?", field "consequence" (rule (type .never)), tok ":",
          field "alternative" (rule (type e))])]
  | unionType e => grow
      (alt [
        node "union_type" (seq [tokNot "|" ["|"], rule (typeOperand e)]),
        node "intersection_type" (seq [tokNot "&" ["&"], rule (typeOperand e)]),
        rule (typeOperand e)])
      [("union_type", none, seq [goesOn e, tokNot "|" ["|", "="], rule (typeOperand e)]),
        ("intersection_type", none, seq [goesOn e, tokNot "&" ["&", "="], rule (typeOperand e)])]
  | typeOperand e => alt [
      functionType e,
      constructorType e,
      node "readonly_type" (seq [word "readonly", rule (type e)]),
      node "infer_type" (seq [word "infer", typeName,
        opt (seq [word "extends", rule (type .never)])]),
      rule (arrayType e)]
  | arrayType e => grow (rule (primaryType e)) [
      ("array_type", none, seq [goesOn e, tok "[", tok "]"]),
      ("lookup_type", none, seq [goesOn e, tok "[", rule (type .never), tok "]"])]
  | primaryType e => alt (primaryTypes e)
  | objectType => node "object_type" (seq typeMembers)
  | typeMember => alt objectTypeMembers

end SourceAtlas.TypeScript
