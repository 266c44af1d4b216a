/-
What a repository says about its build: an image, and jobs whose steps are lists of commands. All
commands run one after the other, in the order in which they are written.
-/
import Pipeworks.Yaml.Fault

namespace Pipeworks

structure Job where
  name : String
  steps : List (List String)
  deriving DecidableEq

structure Definition where
  name : String
  image : String
  jobs : List Job
  deriving DecidableEq

namespace Definition

/-- The file that holds the definition, at the root of a repository. -/
def fileName : String := ".kiln.yml"

/-- The largest file that is read, in bytes. -/
def maxBytes : Nat := 64 * 1024

/-- All commands in the order in which they run. -/
def commands (d : Definition) : List String := d.jobs.flatMap fun job => job.steps.flatten

end Definition

/-! ## Faults -/

inductive DefinitionFault where
  /-- The text is no YAML of the right shape. -/
  | yaml (f : Yaml.Fault)
  | blankName
  | blankImage
  /-- An image that could be taken for an option or for several words. -/
  | badImage (image : String)
  | badJobName (name : Yaml.Value)
  | badSteps (job : String) (f : Yaml.Fault)
  | blankCommand (job : String)
  | noCommand

namespace DefinitionFault

def message : DefinitionFault → String
  | .yaml f => "invalid YAML: " ++ f.message
  | .blankName => "Pipeline 'name' cannot be empty"
  | .blankImage => "Pipeline 'image' cannot be empty"
  | .badImage image => "Pipeline 'image' is not a valid image reference: " ++ Text.quoted image
  | .badJobName name => "Job names must be strings, found " ++ name.diagnostic
  | .badSteps job f => "Job '" ++ job ++ "' must be a list of steps: " ++ f.message
  | .blankCommand job => "Job '" ++ job ++ "' contains an empty command"
  | .noCommand => "Pipeline must declare at least one command"

end DefinitionFault

end Pipeworks
