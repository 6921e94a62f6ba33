import Yuviz.Conversation.Providers

/-!
# The messages of an Anthropic request

Anthropic has no tool role: the calls of a message are blocks of it, and a result
is a block of a message of the user. The instructions are a field of their own.
-/

namespace Yuviz.Conversation

open Python Messages Providers

/-- What an `AnthropicLLM` is made of. -/
structure AnthropicLLM where
  model : String := "claude-haiku-4-5"
  system : String := "You are a helpful voice assistant. " ++
    "Keep responses concise and natural for speech."
  temperature : ℚ := 7 / 10
  maxTokens : ℕ := 4096

namespace AnthropicLLM

inductive Block
  | text (text : String)
  | toolUse (id name : String) (input : Json)
  | toolResult (toolUseId content : String)

inductive Content
  | text (text : String)
  | blocks (blocks : List Block)

structure WireMessage where
  role : Role
  content : Content

def toolUse (c : ToolCall) : Block := .toolUse c.id c.name c.arguments

/-- What a message that gives no instructions is shaped into. -/
def shapeMessage (m : ChatMessage) : WireMessage :=
  if m.toolCalls ≠ [] then
    -- A message that only calls has no text.
    ⟨.assistant, .blocks ((if m.content ≠ "" then [.text m.content] else []) ++
      m.toolCalls.map toolUse)⟩
  else if m.role = .tool then
    ⟨.user, .blocks [.toolResult (orElse m.toolCallId "") m.content]⟩
  else ⟨m.role, .text m.content⟩

def shapeMessages (llm : AnthropicLLM) (messages : List ChatMessage) :
    Option String × List WireMessage :=
  let shaped := buildChatMessages llm.system messages
  (lastSystem none shaped, (shaped.filter (·.role ≠ .system)).map shapeMessage)

/-- `_EFFORT_MODELS`. -/
def effortModels : List String :=
  ["claude-opus-5", "claude-sonnet-5", "claude-fable-5", "claude-mythos-5",
    "claude-opus-4-8", "claude-opus-4-7"]

inductive Sampling
  /-- `output_config` -/
  | effort (effort : String)
  | temperature (temperature : ℚ)

/-- A request. It is always streamed. -/
structure Payload where
  model : String
  messages : List WireMessage
  maxTokens : ℕ
  sampling : Sampling
  system : Option String

def payload (llm : AnthropicLLM) (messages : List ChatMessage) : Payload :=
  let (system, shaped) := llm.shapeMessages messages
  { model := llm.model
    messages := shaped
    maxTokens := llm.maxTokens
    sampling := if effortModels.any fun p => p.toList.isPrefixOf llm.model.toList then
        .effort "low"
      else .temperature llm.temperature
    system := textField system }

end AnthropicLLM

end Yuviz.Conversation
