import KernelMenu.Grammar.Symbol
import KernelMenu.Proofs.Language

/-!
The grammar of the extract format as it is written down: one relation for each rule, one case for
each of its alternatives. A derivation of a token list also says what the list stands for, as the
second argument of the relation.
-/

namespace KernelMenu.Grammar.Phrase

/-- `idOrValue ::= IDENT | INT | HEX | STRLIT`; three identifiers stand for fixed values. -/
inductive Value : Language Expr
  | yes : Value [.ident "y"] .yes
  | mod : Value [.ident "m"] .mod
  | no : Value [.ident "n"] .no
  | ident (name : String) (other : name ∉ ["y", "m", "n"]) : Value [.ident name] (.id name)
  | int (digits : String) : Value [.int digits] (.int digits)
  | hex (digits : String) : Value [.hex digits] (.hex digits)
  | text (body : String) : Value [.text body] (.literal body)

mutual

/-- `EXPR ::= andExpr ( "||" andExpr )*` -/
inductive Expression : Language Expr
  | chain {word words : List Token} {first : Expr} {others : List Expr} :
      Conjunction word first → Star Alternative words others →
      Expression (word ++ words) (others.foldl .or first)

/-- `"||" andExpr` -/
inductive Alternative : Language Expr
  | intro {word : List Token} {operand : Expr} :
      Conjunction word operand → Alternative (.mark .or :: word) operand

/-- `andExpr ::= cmpExpr ( "&&" cmpExpr )*` -/
inductive Conjunction : Language Expr
  | chain {word words : List Token} {first : Expr} {others : List Expr} :
      Comparison word first → Star Conjunct words others →
      Conjunction (word ++ words) (others.foldl .and first)

/-- `"&&" cmpExpr` -/
inductive Conjunct : Language Expr
  | intro {word : List Token} {operand : Expr} :
      Comparison word operand → Conjunct (.mark .and :: word) operand

/-- `cmpExpr ::= unary ( ("=" | "!=") unary )?` -/
inductive Comparison : Language Expr
  | alone {word : List Token} {operand : Expr} : Unary word operand → Comparison word operand
  | eq {front back : List Token} {left right : Expr} : Unary front left → Unary back right →
      Comparison (front ++ .mark .eq :: back) (.eq left right)
  | ne {front back : List Token} {left right : Expr} : Unary front left → Unary back right →
      Comparison (front ++ .mark .ne :: back) (.ne left right)

/-- `unary ::= "!" unary | "(" EXPR ")" | idOrValue` -/
inductive Unary : Language Expr
  | not {word : List Token} {operand : Expr} :
      Unary word operand → Unary (.mark .not :: word) (.not operand)
  | parens {word : List Token} {inner : Expr} : Expression word inner →
      Unary (.mark .openParen :: word ++ [.mark .closeParen]) inner
  | value {word : List Token} {value : Expr} : Value word value → Unary word value

end

/-- `exExpr ::= "[" EXPR? "]"` -/
inductive Bracketed : Language Expr
  | intro {word : List Token} {inner : Option Expr} : Maybe Expression word inner →
      Bracketed (.mark .openBracket :: word ++ [.mark .closeBracket]) (inner.getD .yes)

/-- `ifclause ::= "if" exExpr` -/
inductive Guard : Language Expr
  | intro {word : List Token} {condition : Expr} :
      Bracketed word condition → Guard (.keyword .guard :: word) condition

/-- What stands between the keyword of a property and its guard. -/
inductive Payload : Keyword → List Token → Prop
  | prompt (text : String) : Payload .prompt [.text text]
  | depends {word : List Token} {condition : Expr} :
      Bracketed word condition → Payload .depends (.keyword .on :: word)
  | default {word : List Token} {value : Expr} : Bracketed word value → Payload .default word
  | range {low high : List Token} {least most : Expr} : Value low least → Value high most →
      Payload .range (.mark .openBracket :: (low ++ high) ++ [.mark .closeBracket])
  | select (target : String) : Payload .select [.ident target]
  | env (name : String) : Payload .env [.ident name]

/-- `"depends" "on" exExpr ifclause?` -/
inductive Dependency : Language Expr
  | intro {word guard : List Token} {condition : Expr} {extra : Option Expr} :
      Bracketed word condition → Maybe Guard guard extra →
      Dependency (.keyword .depends :: .keyword .on :: word ++ guard)
        (condition.conjoin (extra.getD .yes))

/-- `property ::= prompt | depends | default | range | select | env` -/
inductive PropertyClause : Language Property
  | prompt (text : String) {guard : List Token} {condition : Option Expr} :
      Maybe Guard guard condition →
      PropertyClause (.keyword .prompt :: .text text :: guard)
        (.prompt ⟨text, condition.getD .yes⟩)
  | depends {word : List Token} {condition : Expr} :
      Dependency word condition → PropertyClause word (.dependsOn condition)
  | default {word guard : List Token} {value : Expr} {condition : Option Expr} :
      Bracketed word value → Maybe Guard guard condition →
      PropertyClause (.keyword .default :: word ++ guard) (.default ⟨value, condition.getD .yes⟩)
  | range {low high guard : List Token} {least most : Expr} {condition : Option Expr} :
      Value low least → Value high most → Maybe Guard guard condition →
      PropertyClause
        (.keyword .range :: .mark .openBracket :: low ++ high ++ .mark .closeBracket :: guard)
        (.range ⟨⟨least, most⟩, condition.getD .yes⟩)
  | select (target : String) {guard : List Token} {condition : Option Expr} :
      Maybe Guard guard condition →
      PropertyClause (.keyword .select :: .ident target :: guard)
        (.select ⟨target, condition.getD .yes⟩)
  | env (name : String) {guard : List Token} {condition : Option Expr} :
      Maybe Guard guard condition →
      PropertyClause (.keyword .env :: .ident name :: guard) (.env ⟨name, condition.getD .yes⟩)

/-- `prompt | default | depends` -/
inductive ChoiceClause : Language Property
  | prompt {word : List Token} {text : Guarded String} :
      PropertyClause word (.prompt text) → ChoiceClause word (.prompt text)
  | default {word : List Token} {value : Guarded Expr} :
      PropertyClause word (.default value) → ChoiceClause word (.default value)
  | depends {word : List Token} {condition : Expr} :
      PropertyClause word (.dependsOn condition) → ChoiceClause word (.dependsOn condition)

/-- `inherited ::= "inherited" exExpr` -/
inductive Inherited : Language Expr
  | intro {word : List Token} {condition : Expr} :
      Bracketed word condition → Inherited (.keyword .inherited :: word) condition

/-- `("config" | "menuconfig") IDENT type` -/
inductive Header : List Token → Bool → String → ValueType → Prop
  | config (name : String) (type : ValueType) :
      Header [.keyword .config, .ident name, .keyword type.keyword] false name type
  | menuconfig (name : String) (type : ValueType) :
      Header [.keyword .menuconfig, .ident name, .keyword type.keyword] true name type

mutual

/-- `config ::= ("config" | "menuconfig") IDENT type ( "{" property* inherited? symbol* "}" )?` -/
inductive Config : Language (ConfigClauses × List Draft)
  | bare {header : List Token} {isMenu : Bool} {name : String} {type : ValueType} :
      Header header isMenu name type → Config header (⟨name, isMenu, type, [], none⟩, [])
  | body {header clauses last symbols : List Token} {isMenu : Bool} {name : String}
      {type : ValueType} {properties : List Property} {inherited : Option Expr}
      {children : List (List Draft)} :
      Header header isMenu name type → Star PropertyClause clauses properties →
      Maybe Inherited last inherited → Star Symbol symbols children →
      Config (header ++ .mark .openBrace :: clauses ++ last ++ symbols ++ [.mark .closeBrace])
        (⟨name, isMenu, type, properties, inherited⟩, children.flatten)

/-- `symbol ::= menu | config | choice | ifblock`; an if-block stands for all that is in it. -/
inductive Symbol : Language (List Draft)
  /-- `menu ::= "menu" STRLIT "{" depends? symbol* "}"` -/
  | menu (title : String) {depends symbols : List Token} {condition : Option Expr}
      {children : List (List Draft)} :
      Maybe Dependency depends condition → Star Symbol symbols children →
      Symbol (.keyword .menu :: .text title :: .mark .openBrace :: depends ++ symbols ++
          [.mark .closeBrace])
        [.menu ⟨title, condition⟩ children.flatten]
  | config {word : List Token} {head : ConfigClauses} {children : List Draft} :
      Config word (head, children) → Symbol word [.entry head children]
  /-- `choice ::= "choice" type "optional"? "{" (prompt | default | depends)* config* "}"` -/
  | choice (type : ValueType) (isOptional : Bool) {clauses entries : List Token}
      {properties : List Property} {options : List (ConfigClauses × List Draft)} :
      Star ChoiceClause clauses properties → Star Config entries options →
      Symbol (.keyword .choice :: .keyword type.keyword ::
          (if isOptional then [.keyword .optional] else []) ++
          .mark .openBrace :: clauses ++ entries ++ [.mark .closeBrace])
        [.choice ⟨type, isOptional, properties⟩ options]
  /-- `ifblock ::= "if" exExpr "{" symbol* "}"` -/
  | block {guard symbols : List Token} {condition : Expr} {children : List (List Draft)} :
      Guard guard condition → Star Symbol symbols children →
      Symbol (guard ++ .mark .openBrace :: symbols ++ [.mark .closeBrace]) children.flatten

end

/-- `kconfig ::= symbol*` -/
inductive Source : Language (List Draft)
  | intro {word : List Token} {parts : List (List Draft)} :
      Star Symbol word parts → Source word parts.flatten

end KernelMenu.Grammar.Phrase
