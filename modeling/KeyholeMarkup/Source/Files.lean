import KeyholeMarkup.Source.Lines
import KeyholeMarkup.Source.Span

/-! The files that positions of a run refer to. -/
namespace KeyholeMarkup.Source

structure File where
  path : String
  content : String
deriving DecidableEq, Repr

def File.index (file : File) : LineIndex := LineIndex.ofText file.content.toList

def File.locate? (file : File) (offset : Nat) : Option Location :=
  file.index.locate? file.content.toList offset

/-- All files of a run; a file is referred to by its position. -/
abbrev Files := List File

def Files.locate? (files : Files) (span : Span) : Option Location :=
  files[span.file]?.bind fun file => file.locate? span.start

end KeyholeMarkup.Source
