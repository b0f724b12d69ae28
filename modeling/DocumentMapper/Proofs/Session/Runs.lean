import DocumentMapper.Proofs.Dialogue.Outcome
import DocumentMapper.Session.Basic

/-
  What sessions do is among the runs of tasks.

  Key definitions include:
    * `Session.transcriptOf`, `Session.transcriptOfStep`

  Main statements include:
    * `Session.ends_work`, `Session.ends_converse`
-/

namespace DocumentMapper

namespace Session

variable {T : Type}
variable [EntityTypes T]
variable {α : Type}

/- What is asked and answered when a session runs a task. -/
def transcriptOf
    (s : Session T)
    (x : Task T (scriptedHooks T) α) :
    Transcript T (scriptedHooks T) :=
  (x.run.run s.registry).transcript answer s

/- A session runs tasks on its registry. -/
theorem ends_work
    (s : Session T)
    (x : Task T (scriptedHooks T) α) :
    x.Ends s.registry (s.transcriptOf x)
      (work x s).1 (work x s).2.registry :=
  Dialogue.ends_transcript answer (x.run.run s.registry) s

/- What is asked and answered when a session runs a step. -/
def transcriptOfStep
    (s : Session T)
    (x : Step T (scriptedHooks T) α) :
    Transcript T (scriptedHooks T) :=
  x.run.transcript answer s

/- A session runs steps. -/
theorem ends_converse
    (s : Session T)
    (x : Step T (scriptedHooks T) α) :
    x.Ends (s.transcriptOfStep x) (converse x s).1 :=
  Dialogue.ends_transcript answer x.run s

end Session

end DocumentMapper
