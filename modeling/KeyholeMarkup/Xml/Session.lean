import KeyholeMarkup.Xml.Reader

/-! Reading with the diagnostics collected: the warnings of a text and then its error. -/
namespace KeyholeMarkup.Xml
open KeyholeMarkup.Diagnostic

structure Session where
  file : Nat
  diagnostics : List Message
deriving DecidableEq, Repr

namespace Session

def forFile (file : Nat) : Session := ⟨file, []⟩

/-- Reads a text and adds its diagnostics. A failure is returned as its diagnostic, too. -/
def parse (session : Session) (text : String) : Except (List Message) Document × Session :=
  let reading := read session.file text
  match reading.result with
  | .ok document =>
    (.ok document, { session with diagnostics := session.diagnostics ++ reading.warnings })
  | .error error =>
    (.error [error.diagnostic],
      { session with
        diagnostics := session.diagnostics ++ reading.warnings ++ [error.diagnostic] })

def take (session : Session) : List Message × Session :=
  (session.diagnostics, { session with diagnostics := [] })

def hasErrors (session : Session) : Bool := session.diagnostics.any (·.severity == .error)

end Session
end KeyholeMarkup.Xml
