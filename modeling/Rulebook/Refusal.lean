import Rulebook.Text.Reference

/-!
# Refusals

Why a rule, a document, a registration or a request is refused. Each refusal is a cause; its wording
is one function of the cause.
-/

namespace Rulebook

/-- Why a text is no value of the kind that a rule needs. -/
inductive CoercionFault where
  /-- The text is no finite number. -/
  | notANumber (text : String)
  /-- The text is no date of the pattern. -/
  | notADate (text pattern : String)
  deriving DecidableEq, Repr

/-- The wording of a fault. -/
def CoercionFault.message : CoercionFault → String
  | .notANumber text => s!"无法将 '{text}' 解析为数值"
  | .notADate text pattern => s!"无法按格式 {pattern} 解析日期 '{text}'"

/-- The largest number of operands of a custom operator. -/
def maxArguments : Nat := 4

/-- Why the text of a rule is no rule. -/
inductive ExpressionFault where
  /-- The text does not have the shape of target, operator and operands. -/
  | shape
  /-- There is no operator behind the target. -/
  | missingOperator
  /-- The segment between target and operands holds no operator. -/
  | unknownOperator (segment : String)
  /-- The text is empty. -/
  | emptyText
  /-- A custom operator has too many operands. -/
  | tooManyArguments
  /-- The operator takes one operand, not the number given. -/
  | operandCount (count : Nat)
  /-- A set of values has no members. -/
  | noMembers
  /-- Arithmetic has no operands. -/
  | noOperands
  /-- An operand is empty. -/
  | emptyOperand
  /-- A literal has a reference that stands for nothing. -/
  | reference (fault : Text.ReferenceFault)
  /-- A literal is no value of the kind that the operator needs. -/
  | coercion (fault : CoercionFault)
  deriving DecidableEq, Repr

/-- The wording of a fault. -/
def ExpressionFault.message : ExpressionFault → String
  | .shape => "格式应为 (属性) 操作符 (操作数, ...)"
  | .missingOperator => "缺少操作符"
  | .unknownOperator segment => s!"未知操作符 '{segment}'"
  | .emptyText => "eval 正文为空"
  | .tooManyArguments => s!"自定义操作符最多 {maxArguments} 个操作数"
  | .operandCount count => s!"需要恰好一个操作数，实际 {count} 个"
  | .noMembers => "值域至少需要一个成员"
  | .noOperands => "算术赋值至少需要一个操作数"
  | .emptyOperand => "操作数为空"
  | .reference fault => s!"字面量转义无效: {fault.message}"
  | .coercion fault => fault.message

/-- Why a document cannot be cut into tags and text. -/
inductive SyntaxFault where
  /-- A tag has no end. -/
  | openTag
  /-- An exclamation mark behind the opening bracket is followed by no known character. -/
  | unknownMark
  /-- A comment has no end. -/
  | openComment
  /-- A section of character data has no end. -/
  | openCharacterData
  /-- A document type has no end. -/
  | openDocumentType
  /-- A document type has no name. -/
  | unnamedDocumentType
  /-- A processing instruction has no end. -/
  | openInstruction
  /-- An end tag names another element than the one that is open. -/
  | wrongEnd (expected found : String)
  /-- An end tag stands where no element is open. -/
  | strayEnd (found : String)
  deriving DecidableEq, Repr

/-- The wording of a fault. -/
def SyntaxFault.message : SyntaxFault → String
  | .openTag => "syntax error: tag not closed: `>` not found before end of input"
  | .unknownMark => "syntax error: unknown or missed symbol in markup"
  | .openComment => "syntax error: comment not closed: `-->` not found before end of input"
  | .openCharacterData => "syntax error: CDATA not closed: `]]>` not found before end of input"
  | .openDocumentType => "syntax error: DOCTYPE not closed: `>` not found before end of input"
  | .unnamedDocumentType =>
    "ill-formed document: `<!DOCTYPE>` declaration does not contain a name of a document type"
  | .openInstruction =>
    "syntax error: processing instruction or xml declaration not closed: " ++
      "`?>` not found before end of input"
  | .wrongEnd expected found =>
    s!"ill-formed document: expected `</{expected}>`, but `</{found}>` was found"
  | .strayEnd found => s!"ill-formed document: close tag `</{found}>` does not match any open tag"

/-- Why the attributes of a tag cannot be read. Places are offsets in bytes from the start of the
tag's content. -/
inductive AttributeFault where
  /-- A key is not followed by an equals sign. -/
  | missingEquals (place : Nat)
  /-- An equals sign is followed by nothing. -/
  | missingValue (place : Nat)
  /-- A value has no quotes. -/
  | unquotedValue (place : Nat)
  /-- A value has no closing quote. -/
  | openValue (place : Nat) (quote : Char)
  /-- A key is given twice. -/
  | duplicateKey (place earlier : Nat)
  deriving DecidableEq, Repr

/-- The wording of a fault. -/
def AttributeFault.message : AttributeFault → String
  | .missingEquals place =>
    s!"position {place}: attribute key must be directly followed by `=` or space"
  | .missingValue place => s!"position {place}: `=` must be followed by an attribute value"
  | .unquotedValue place =>
    s!"position {place}: attribute value must be enclosed in `\"` or `'`"
  | .openValue place quote =>
    s!"position {place}: missing closing quote `{quote}` in attribute value"
  | .duplicateKey place earlier =>
    s!"position {place}: duplicated attribute, previous declaration at position {earlier}"

/-- Why a document is no tree of elements. -/
inductive MarkupFault where
  /-- The document is broken; the place is the number of bytes read so far. -/
  | broken (place : Nat) (fault : SyntaxFault)
  /-- The attributes of an element cannot be read. -/
  | attributes (element : String) (fault : AttributeFault)
  /-- The value of an attribute has a reference that stands for nothing. -/
  | attributeValue (element key : String) (fault : Text.ReferenceFault)
  /-- The document ends inside an element. -/
  | openElement (element : String)
  deriving DecidableEq, Repr

/-- The wording of a fault. -/
def MarkupFault.message : MarkupFault → String
  | .broken place fault => s!"位置 {place}: {fault.message}"
  | .attributes element fault => s!"<{element}> 属性无效: {fault.message}"
  | .attributeValue element key fault => s!"<{element}> 属性 {key} 无效: {fault.message}"
  | .openElement element => s!"标签 <{element}> 未闭合"

/-- Why a request is refused. -/
inductive Refusal where
  /-- The document has no elements. -/
  | emptyMarkup
  /-- The document is no tree of elements. -/
  | markup (fault : MarkupFault)
  /-- No attribute has the name. -/
  | unknownAttribute (name : String)
  /-- A text is no rule. -/
  | expression (text : String) (fault : ExpressionFault)
  /-- A custom operator may not have the name. -/
  | reservedName (name : String)
  /-- No function is registered under the name of a custom operator. -/
  | unboundOperator (name : String)
  /-- Elements are nested deeper than the limit. -/
  | tooDeep (limit : Nat)
  /-- No tree is stored under the name. -/
  | treeNotFound (name : String)
  deriving DecidableEq, Repr

namespace Refusal

/-- The wording of a refusal. -/
def message : Refusal → String
  | .emptyMarkup => "规则标记为空"
  | .markup fault => s!"规则标记解析失败: {fault.message}"
  | .unknownAttribute name => s!"未知属性: {name}"
  | .expression text fault => s!"表达式 '{text}' 无效: {fault.message}"
  | .reservedName name => s!"自定义操作符 '{name}' 与保留操作符冲突"
  | .unboundOperator name => s!"自定义操作符 '{name}' 未绑定实现"
  | .tooDeep limit => s!"规则树嵌套深度超过上限 {limit}"
  | .treeNotFound name => s!"规则树未找到: {name}"

/-- The refusal stops the making of a tree from its document. -/
def isParseError : Refusal → Bool
  | .emptyMarkup | .markup _ | .unknownAttribute _ | .expression _ _ | .tooDeep _ => true
  | .reservedName _ | .unboundOperator _ | .treeNotFound _ => false

/-- The refusal is about the names of custom operators. -/
def isConfigurationError : Refusal → Bool
  | .reservedName _ | .unboundOperator _ => true
  | .emptyMarkup | .markup _ | .unknownAttribute _ | .expression _ _ | .tooDeep _
  | .treeNotFound _ => false

/-- A refusal that stops the making of a tree is not about custom operators. -/
theorem not_isConfigurationError_of_isParseError {refusal : Refusal}
    (h : refusal.isParseError = true) : refusal.isConfigurationError = false := by
  cases refusal <;> simp_all [isParseError, isConfigurationError]

end Refusal

end Rulebook
