import Medley.Proofs.Engine.Loading
import Medley.Proofs.Template.Overlong

/-! How a load can fail. Whatever a name looks like and whatever the files hold, what goes wrong with
the loader is told as a template that is missing or cannot be loaded. What goes wrong before it, with
the key of a name in the cache, and after it, with an integer of the page data, is not. -/
namespace Medley

namespace Fault

def IsLoading : Fault → Prop
  | notFound _ | loadFailed .. => True
  | _ => False

theorem IsLoading.ofTemplate {f : Fault} (h : f.IsLoading) : f.ofTemplate = true := by
  cases f <;> first | rfl | contradiction

theorem IsLoading.kind {f : Fault} (h : f.IsLoading) :
    f.kind = "TemplateNotFoundError" ∨ f.kind = "TemplateLoadError" := by
  cases f with
  | notFound message => exact .inl rfl
  | loadFailed message name filename cause => exact .inr rfl
  | _ => contradiction

theorem IsOverlong.ofTemplate {f : Fault} (h : f.IsOverlong) : f.ofTemplate = false := by
  obtain ⟨digits, _, rfl⟩ := h
  rfl

end Fault

namespace Encoding

theorem decodeAsciiFault {bytes : Bytes} {offset : Nat} {f : Fault}
    (h : decodeAscii offset bytes = .error f) : f.ofTemplate = false := by
  induction bytes generalizing offset with
  | nil => contradiction
  | cons b rest ih =>
    rw [decodeAscii] at h
    split at h
    · exact ih (errorMap h)
    · cases h
      rfl

theorem decode16Fault {big : Bool} {bytes : Bytes} {offset : Nat} {f : Fault}
    (h : decode16 big offset bytes = .error f) : f.ofTemplate = false := by
  fun_induction decode16 big offset bytes with
  | case1 => contradiction
  | case4 offset a b n _ _ c d after m _ ih => exact ih (errorMap h)
  | case7 offset a b rest n _ _ ih => exact ih (errorMap h)
  | _ =>
    cases h
    rfl

theorem decodeTextFault {bytes : Bytes} {f : Fault} (h : Utf8.decodeText bytes = .error f) :
    f.ofTemplate = false := by
  unfold Utf8.decodeText at h
  split at h
  · cases h
  · cases h
    rfl

theorem decodeFault {e : Encoding} {bytes : Bytes} {f : Fault} (h : e.decode bytes = .error f) :
    f.ofTemplate = false := by
  cases e with
  | utf8 => exact decodeTextFault h
  | markedUtf8 =>
    unfold decode decodeMarked at h
    dsimp only at h
    split at h
    · cases h
    · cases h
    · exact decodeTextFault h
    · exact decodeTextFault h
  | ascii => exact decodeAsciiFault h
  | latin1 => cases h
  | utf16 =>
    unfold decode decodeMarked16 at h
    dsimp only at h
    split at h
    · exact decode16Fault h
    · exact decode16Fault h
    · rcases errorBind h with read | ⟨cs, _, h⟩
      · exact decode16Fault read
      · split at h
        · cases h
        · cases h
          rfl
  | utf16Little | utf16Big => exact decode16Fault h

end Encoding

namespace FileTree

theorem fileFault {t : FileTree} {p : Pathname} {f : Fault} (h : t.file? p = .error f) :
    f.ofTemplate = false := by
  rcases errorBind h with placed | ⟨place, _, h⟩
  · unfold place? at placed
    split at placed
    · cases placed
      rfl
    · split at placed
      · cases placed
      · split at placed
        · cases placed
        · cases placed
          rfl
  · split at h <;> cases h

theorem readTextFault {encoding : String} {bytes : Encoding.Bytes} {f : Fault}
    (h : readText encoding bytes = .error f) : f.ofTemplate = false := by
  unfold readText at h
  rcases errorBind h with named | ⟨e, _, h⟩
  · unfold Encoding.ofName at named
    dsimp only at named
    split at named
    · cases named
    · cases named
      rfl
  · rcases errorBind h with decoded | ⟨cs, _, h⟩
    · exact Encoding.decodeFault decoded
    · cases h

end FileTree

theorem Pathname.withNameFault {p : Pathname} {name : String} {f : Fault}
    (h : p.withName name = .error f) : f.ofTemplate = false := by
  unfold withName at h
  split at h
  · cases h
    rfl
  · dsimp only at h
    split at h
    · cases h
    · cases h
      rfl

namespace Directories

theorem resolveFault {d : Directories} {kind : Kind} {name : String} {f : Fault}
    (h : d.resolve kind name = .error f) : f.ofTemplate = false := by
  unfold resolve at h
  dsimp only at h
  split at h
  · exact Pathname.withNameFault h
  · cases h

theorem sourceFault {d : Directories} {tree : FileTree} {kind : Kind} {name : String} {f : Fault}
    (h : d.source tree kind name = .error f) : f.IsLoading ∨ f.ofTemplate = false := by
  unfold source at h
  rcases errorBind h with refused | ⟨path, _, h⟩
  · exact .inr (resolveFault refused)
  · rcases errorBind h with refused | ⟨bytes?, _, h⟩
    · exact .inr (FileTree.fileFault refused)
    · cases bytes? with
      | none =>
        cases h
        exact .inl trivial
      | some bytes =>
        rcases errorBind h with refused | ⟨text, _, h⟩
        · exact .inr (FileTree.readTextFault refused)
        · cases h

end Directories

namespace Loader

/-- A store of the host program fails by a template that is missing or cannot be loaded, or by what
is no fault of templates at all. -/
def Documented : Loader → Prop
  | memory _ | files _ => True
  | custom store =>
      (∀ kind name f, store.source kind name = .error f → f.IsLoading ∨ f.ofTemplate = false) ∧
        ∀ kind name f, store.cacheKey kind name = .error f → f.ofTemplate = false

variable {l : Loader} {kind : Kind} {name : String} {f : Fault}

theorem sourceFault (documented : l.Documented) {tree : FileTree}
    (h : l.source tree kind name = .error f) : f.IsLoading ∨ f.ofTemplate = false := by
  cases l with
  | memory shelves =>
    rcases errorBind h with missing | ⟨text, _, h⟩
    · unfold Shelves.source at missing
      split at missing
      · cases missing
      · cases missing
        exact .inl trivial
    · cases h
  | files d =>
    rcases errorBind h with refused | ⟨found, _, h⟩
    · exact Directories.sourceFault refused
    · cases h
  | custom store => exact documented.1 kind name f h

theorem keyFault (documented : l.Documented) (h : l.cacheKey kind name = .error f) :
    f.ofTemplate = false := by
  cases l with
  | memory shelves => cases h
  | custom store => exact documented.2 kind name f h
  | files d =>
    rcases errorBind h with refused | ⟨path, _, h⟩
    · exact Directories.resolveFault refused
    · cases h

end Loader

namespace Engine
variable {e : Engine} {c : Cache} {kind : Kind} {name : String} {f : Fault}

/- Reading a template anew fails for want of it, or by an integer of its page data. -/
theorem fetchFault (documented : e.loader.Documented) (h : e.fetch kind name = .error f) :
    f.IsLoading ∨ f.IsOverlong := by
  unfold fetch at h
  split at h
  · rename_i fault refused
    cases h
    unfold Fault.ofLoading
    split
    · rename_i known
      refine .inl ((Loader.sourceFault documented refused).resolve_right ?_)
      simp [known]
    · exact .inl trivial
  · exact .inr (Template.readFault (errorMap h))

theorem cacheKeyFault (h : e.cacheKey? kind name = .error f) :
    e.cached = true ∧ e.loader.cacheKey kind name = .error f := by
  unfold cacheKey? at h
  split at h
  · rename_i cached
    rcases errorBind h with refused | ⟨key, _, h⟩
    · exact ⟨cached, refused⟩
    · contradiction
  · contradiction

theorem loadedFault (h : e.loaded c kind name = .error f) :
    e.cacheKey? kind name = .error f ∨ e.fetch kind name = .error f := by
  unfold loaded at h
  rcases errorBind h with refused | ⟨key?, _, h⟩
  · exact .inl refused
  · split at h
    · exact .inr h
    · split at h
      · contradiction
      · exact .inr h

theorem ifFoundFault {α : Type} {x : Except Fault α} (h : ifFound x = .error f) :
    x = .error f ∧ f.ofTemplate = false := by
  cases x with
  | ok a => contradiction
  | error fault =>
    simp only [ifFound] at h
    split at h
    · contradiction
    · rename_i other
      cases h
      exact ⟨rfl, by simpa using other⟩

theorem resolvedFault (h : e.resolved c kind name = .error f) :
    e.loaded c kind name = .error f ∧ f.ofTemplate = false := by
  unfold resolved at h
  split at h
  · contradiction
  · exact ifFoundFault h

end Engine
end Medley
