import Yuviz.Conversation.Messages

/-!
# The messages that a provider is given

`build_chat_messages` puts the provider's own instructions before the messages of
a conversation that has none. Where instructions are a field of their own, the
provider takes them out of the messages again, and what stands in the field is
those it took out last (`lastSystem`).
-/

namespace Yuviz.Conversation.Providers

open Messages

def buildChatMessages (system : String) (messages : List ChatMessage) : List ChatMessage :=
  if system ≠ "" ∧ ∀ m ∈ messages, m.role ≠ .system then
    { role := .system, content := system } :: messages
  else messages

/-- The instructions, after the messages that are left. -/
def lastSystem : Option String → List ChatMessage → Option String
  | system, [] => system
  | system, m :: ms => lastSystem (if m.role = .system then some m.content else system) ms

/-- A field for a text is left out where there is none. -/
def textField (text : Option String) : Option String := text.filter (· ≠ "")

variable {system content : String} {text : Option String} {messages : List ChatMessage}
  {m : ChatMessage}

theorem buildChatMessages_eq_or (system : String) (messages : List ChatMessage) :
    buildChatMessages system messages = messages ∨
      buildChatMessages system messages = { role := .system, content := system } :: messages := by
  rw [buildChatMessages]
  split_ifs
  · exact .inr rfl
  · exact .inl rfl

/-- Where a conversation has instructions, those of the provider are left out. -/
theorem buildChatMessages_of_mem (h : m ∈ messages) (hm : m.role = .system) :
    buildChatMessages system messages = messages :=
  if_neg fun hnone => hnone.2 m h hm

theorem getD_textField : (textField text).getD "" = text.getD "" := by
  rcases text with _ | text
  · rfl
  · rw [textField, Option.filter_some]
    by_cases htext : text = ""
    · simp only [htext, ne_eq, not_true_eq_false, decide_false]
      rfl
    · simp only [htext, ne_eq, not_false_eq_true, decide_true]
      rfl

theorem lastSystem_of_forall_ne (h : ∀ m ∈ messages, m.role ≠ .system) :
    lastSystem text messages = text := by
  induction messages with
  | nil => rfl
  | cons m ms ih =>
    rw [List.forall_mem_cons] at h
    rw [lastSystem, if_neg h.1]
    exact ih h.2

/-- Where all that are left give the same instructions, it does not matter which are last. -/
theorem lastSystem_of_forall (h : ∀ m ∈ messages, m.role = .system → m.content = content)
    (hm : ∃ m ∈ messages, m.role = .system) : lastSystem text messages = some content := by
  induction messages generalizing text with
  | nil => simp at hm
  | cons m ms ih =>
    rw [List.forall_mem_cons] at h
    rw [lastSystem]
    by_cases hrest : ∃ m ∈ ms, m.role = .system
    · exact ih h.2 hrest
    · have hrole : m.role = .system := by
        obtain ⟨m', hm', hrole⟩ := hm
        obtain rfl | hm' := List.mem_cons.1 hm'
        · exact hrole
        · exact absurd ⟨m', hm', hrole⟩ hrest
      rw [if_pos hrole, h.1 hrole]
      exact lastSystem_of_forall_ne fun m' hm' hrole' => hrest ⟨m', hm', hrole'⟩

end Yuviz.Conversation.Providers
