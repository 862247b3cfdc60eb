import StageScript.Word

/-! # Accessors
How a field of a record appears to scripts, which see nothing but words.
* `FieldKind.normalise` says what becomes of a word that is written to a field and read back;
* `Accessor` is a field with its reading and writing, made by `Accessor.word`, `Accessor.byte` and
  `Accessor.whole`. -/

namespace StageScript

/-- How a field keeps a word. -/
inductive FieldKind
  /-- As it is. -/
  | word
  /-- Its low eight bits. -/
  | byte
  /-- As the whole pixels of a fixed-point coordinate. -/
  | whole
  deriving DecidableEq, Repr

/-- What is read back after a word has been written. -/
def FieldKind.normalise : FieldKind → Word → Word
  | .word, w => w
  | .byte, w => Word.ofByte w.lowByte
  | .whole, w => Word.whole (Word.ofWhole w)

/-- A field of a record of type `σ`. -/
structure Accessor (σ : Type) where
  kind : FieldKind
  /-- Reads the field. -/
  get : σ → Word
  /-- Writes the field. -/
  set : σ → Word → σ

namespace Accessor

/-- A field that holds a word. -/
def word {σ : Type} (get : σ → Word) (set : σ → Word → σ) : Accessor σ := ⟨.word, get, set⟩

/-- A field that holds a byte. -/
def byte {σ : Type} (get : σ → UInt8) (set : σ → UInt8 → σ) : Accessor σ :=
  ⟨.byte, fun s => Word.ofByte (get s), fun s w => set s w.lowByte⟩

/-- The whole pixels of a field that holds a fixed-point coordinate. -/
def whole {σ : Type} (get : σ → Word) (set : σ → Word → σ) : Accessor σ :=
  ⟨.whole, fun s => (get s).whole, fun s w => set s (Word.ofWhole w)⟩

/-- The law of a field: what is read after a write is the word as the field keeps it. -/
def Lawful {σ : Type} (a : Accessor σ) : Prop :=
  ∀ s w, a.get (a.set s w) = a.kind.normalise w

theorem lawful_word {σ : Type} {get : σ → Word} {set : σ → Word → σ}
    (h : ∀ s w, get (set s w) = w) : (word get set).Lawful := h

theorem lawful_byte {σ : Type} {get : σ → UInt8} {set : σ → UInt8 → σ}
    (h : ∀ s b, get (set s b) = b) : (byte get set).Lawful :=
  fun s w => congrArg Word.ofByte (h s w.lowByte)

theorem lawful_whole {σ : Type} {get : σ → Word} {set : σ → Word → σ}
    (h : ∀ s w, get (set s w) = w) : (whole get set).Lawful :=
  fun s w => congrArg Word.whole (h s (Word.ofWhole w))

end Accessor

end StageScript
