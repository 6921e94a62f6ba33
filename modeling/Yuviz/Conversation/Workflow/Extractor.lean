import Mathlib.Data.List.Perm.Basic
import Yuviz.Config.Workflow.Variables

/-!
# The variable extractor

Extraction runs out of band, on the language model of the call: a node left is
only queued (`extract`), with a copy of the history as it is then. The pipeline
starts what is queued once the live generation is done (`startDeferred`), and
puts what still runs back into the queue when the caller speaks
(`interruptForLiveTurn`).
-/

namespace Yuviz.Conversation.Workflow

open Config Python

/-- The queue and the running extractions, each of a node and a copy of the history. -/
structure VariableExtractor (H : Type*) where
  deferred : List (Config.Node × H) := []
  inflight : List (Config.Node × H) := []

namespace VariableExtractor

variable {H : Type*} {x : VariableExtractor H} {node : Config.Node} {history : H}
  {item : Config.Node × H} {order : List (Config.Node × H)} {v : String}

/-- `_wants_extraction`. -/
def wantsExtraction (node : Config.Node) : Bool :=
  node.extraction.any fun extraction => extraction.enabled && !extraction.vars.isEmpty

def extract (x : VariableExtractor H) (node : Config.Node) (history : H) : VariableExtractor H :=
  if wantsExtraction node then { x with deferred := x.deferred ++ [(node, history)] } else x

def startDeferred (x : VariableExtractor H) : VariableExtractor H where
  deferred := []
  inflight := x.inflight ++ x.deferred

/-- The tasks are a set, which is gone through in any order. -/
def interruptForLiveTurn (x : VariableExtractor H) (order : List (Config.Node × H)) :
    VariableExtractor H where
  deferred := x.deferred ++ order
  inflight := []

/-- A task is done. -/
def onTaskDone [DecidableEq H] (x : VariableExtractor H) (item : Config.Node × H) :
    VariableExtractor H :=
  { x with inflight := x.inflight.erase item }

/-- An extraction that is to yield `v` is still queued or running. -/
def Outstanding (x : VariableExtractor H) (v : String) : Prop :=
  ∃ item ∈ x.deferred ++ x.inflight, v ∈ item.1.declares

instance (x : VariableExtractor H) (v : String) : Decidable (x.Outstanding v) :=
  inferInstanceAs (Decidable (∃ item ∈ _, v ∈ _))

theorem declares_of_not_wantsExtraction (h : ¬ wantsExtraction node) : node.declares = ∅ := by
  rw [Config.Node.declares]
  rcases hextraction : node.extraction with _ | extraction
  · rfl
  · dsimp only
    split_ifs with henabled
    · have hvars : extraction.vars = [] := by
        simpa [wantsExtraction, hextraction, henabled] using h
      rw [hvars]
      rfl
    · rfl

/-- What a node declares is outstanding once it is queued. -/
theorem outstanding_extract_iff :
    (x.extract node history).Outstanding v ↔ v ∈ node.declares ∨ x.Outstanding v := by
  rw [extract]
  split_ifs with h
  · simp only [Outstanding, List.mem_append, List.mem_singleton]
    constructor
    · rintro ⟨item, (hitem | rfl) | hitem, hv⟩
      · exact .inr ⟨item, .inl hitem, hv⟩
      · exact .inl hv
      · exact .inr ⟨item, .inr hitem, hv⟩
    · rintro (hv | ⟨item, hitem | hitem, hv⟩)
      · exact ⟨_, .inl (.inr rfl), hv⟩
      · exact ⟨item, .inl (.inl hitem), hv⟩
      · exact ⟨item, .inr hitem, hv⟩
  · rw [declares_of_not_wantsExtraction h]
    simp

theorem outstanding_startDeferred_iff : x.startDeferred.Outstanding v ↔ x.Outstanding v := by
  simp only [Outstanding, startDeferred, List.nil_append, List.mem_append, or_comm]

theorem outstanding_interruptForLiveTurn_iff (h : order.Perm x.inflight) :
    (x.interruptForLiveTurn order).Outstanding v ↔ x.Outstanding v := by
  simp only [Outstanding, interruptForLiveTurn, List.append_nil, List.mem_append, h.mem_iff]

/-- What is outstanding is yielded by a task that is done, or still outstanding. -/
theorem Outstanding.onTaskDone [DecidableEq H] (h : x.Outstanding v) :
    v ∈ item.1.declares ∨ (x.onTaskDone item).Outstanding v := by
  obtain ⟨item', hitem', hv⟩ := h
  by_cases heq : item' = item
  · exact .inl (heq ▸ hv)
  · refine .inr ⟨item', ?_, hv⟩
    rw [VariableExtractor.onTaskDone]
    rcases List.mem_append.1 hitem' with h | h
    · exact List.mem_append_left _ h
    · exact List.mem_append_right _ ((List.mem_erase_of_ne heq).2 h)

end VariableExtractor

end Yuviz.Conversation.Workflow
