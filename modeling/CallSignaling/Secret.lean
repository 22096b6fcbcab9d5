/-!
# Secrets

* `Secret`: a text that is not to be shown by accident.
* `Secret.expose`: the text, for those who need it.
* `Secret.describe`: what logs show, the same for every secret.
-/

namespace CallSignaling

/-- A text that is not to be shown by accident. -/
structure Secret where
  private mk ::
  private text : String
  deriving DecidableEq

namespace Secret

/-- The secret that holds a text. -/
def ofText (text : String) : Secret := ⟨text⟩

/-- The text of a secret. -/
def expose (s : Secret) : String := s.text

/-- What logs show of a secret. -/
def describe (_ : Secret) : String := "SecretBox<str>([REDACTED])"

@[simp] theorem expose_ofText (text : String) : (ofText text).expose = text := rfl

end Secret

end CallSignaling
