/-
  Threads of the host.

  A thread is started under a name.  The host reads the name up to its first
  zero character, so a name must not hold one: whoever asks for a thread under
  such a name dies.  Otherwise the host grants the thread or refuses it.
-/
namespace Stepper.Host

/-- What the host does when it is asked for a thread. -/
inductive Threads where
  | granted
  | refused (reason : String)
  deriving DecidableEq, Repr

/-- What comes of asking for a thread. -/
inductive Spawned where
  | started
  | refused (reason : String)
  /-- Who has asked dies, with these last words. -/
  | died (words : String)
  deriving DecidableEq, Repr

/-- A thread can bear the name. -/
def IsThreadName (name : String) : Prop := '\x00' ∉ name.toList

instance (name : String) : Decidable (IsThreadName name) := inferInstanceAs (Decidable (_ ∉ _))

/-- What is said of a name that no thread can bear: where its first zero is, and
    all its bytes. -/
def lastWords (name : String) : String :=
  let bytes := name.toUTF8.toList.map UInt8.toNat
  "thread name may not contain interior null bytes: NulError(" ++
    toString (bytes.findIdx (· == 0)) ++ ", " ++ toString bytes ++ ")"

/-- A thread is asked for.  The name is looked at before the host is asked. -/
def Threads.spawn (threads : Threads) (name : String) : Spawned :=
  if IsThreadName name then
    match threads with
    | granted => .started
    | refused reason => .refused reason
  else .died (lastWords name)

variable {threads : Threads} {name : String}

theorem Threads.spawn_eq_refused_iff {reason : String} :
    threads.spawn name = .refused reason ↔ IsThreadName name ∧ threads = .refused reason := by
  unfold spawn
  split
  · rename_i named
    cases threads <;> simp [named]
  · rename_i unnamed
    simp [unnamed]

end Stepper.Host
