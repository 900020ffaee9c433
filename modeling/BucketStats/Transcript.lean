/-!
# Transcripts

A transcript is the record of a computation that notes things on its way and may stop before its
end: the notes in order, and the result or the reason for stopping.  What was noted before a stop
stays noted.
-/

namespace BucketStats

structure Transcript (ν ε α : Type) where
  notes : List ν
  result : Except ε α

namespace Transcript

variable {ν ε α β : Type}

def ofExcept (r : Except ε α) : Transcript ν ε α :=
  ⟨[], r⟩

def note (n : ν) : Transcript ν ε Unit :=
  ⟨[n], .ok ()⟩

def stop (e : ε) : Transcript ν ε α :=
  ⟨[], .error e⟩

def andThen (t : Transcript ν ε α) (f : α → Transcript ν ε β) : Transcript ν ε β :=
  match t.result with
  | .ok a => ⟨t.notes ++ (f a).notes, (f a).result⟩
  | .error e => ⟨t.notes, .error e⟩

instance : Monad (Transcript ν ε) where
  pure a := ⟨[], .ok a⟩
  bind := andThen

/-- The same computation, with its notes and its stops told in other words. -/
def translate {ν' ε' : Type} (f : ν → ν') (g : ε → ε') (t : Transcript ν ε α) :
    Transcript ν' ε' α :=
  ⟨t.notes.map f, t.result.mapError g⟩

@[simp]
theorem pure_def (a : α) : (pure a : Transcript ν ε α) = ⟨[], .ok a⟩ := rfl

@[simp]
theorem bind_ok (notes : List ν) (a : α) (f : α → Transcript ν ε β) :
    (⟨notes, .ok a⟩ : Transcript ν ε α) >>= f = ⟨notes ++ (f a).notes, (f a).result⟩ := rfl

@[simp]
theorem bind_error (notes : List ν) (e : ε) (f : α → Transcript ν ε β) :
    (⟨notes, .error e⟩ : Transcript ν ε α) >>= f = ⟨notes, .error e⟩ := rfl

end Transcript

end BucketStats
