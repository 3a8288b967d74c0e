import TouchGame.Repair.Request
import TouchGame.Settings

/-!
# The revising service

Rules are revised by a chat service. What is given for it wins over the environment, and an empty
text counts as not given.

* `Service.of?` : the service to use; there is none without a key.
* `Service.call` : what is sent to it for a prompt.
-/

namespace TouchGame.Repair

/-- What is given for a service besides the environment. -/
structure ServiceChoice where
  apiKey : Option String
  baseUrl : Option String
  model : Option String
  temperature : Option Number

/-- A chat service. -/
structure Service where
  apiKey : String
  baseUrl : Option String
  model : String
  temperature : Number

/-- A message to a chat service. -/
structure ChatMessage where
  role : String
  content : String

/-- What is sent to a chat service. -/
structure ChatCall where
  model : String
  messages : List ChatMessage
  temperature : Number

namespace Service

def missingKey : String := "OPENAI_API_KEY environment variable not set."

def given (text : Option String) : Option String :=
  text.filter (!·.isEmpty)

/-- The service to use; none without a key. -/
def of? (env : Environment) (choice : ServiceChoice) : Option Service := do
  let apiKey ← given ((given choice.apiKey).or env.apiKey)
  return {
    apiKey := apiKey
    baseUrl := (given choice.baseUrl).or env.baseUrl
    model := (given choice.model).getD env.model
    temperature := choice.temperature.getD (.thousandths 200) }

/-- What is sent to a service for a prompt: its task, then the prompt. -/
def call (s : Service) (prompt : String) : ChatCall where
  model := s.model
  messages := [⟨"system", Request.task⟩, ⟨"user", prompt⟩]
  temperature := s.temperature

end Service

end TouchGame.Repair
