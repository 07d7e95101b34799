import PlatformWiring.Platform
import PlatformWiring.Proofs.TypeName

/-!
# Names of implementations

The name of an implementation tells the type and the platform, since no platform's tag begins like
the other one's: even a type whose own simple name begins with a tag is told apart from the
implementation of another type. The tag leaves the package as it is and adds no full stop, so what
names an implementation can be read if the name of the type can. With that a name stands for its
written form: reading undoes writing, on names of implementations as on all others.
-/

namespace PlatformWiring

namespace TypeName

/-- Neither the type nor the platform is lost in the name of the implementation. The tags of the
platforms begin with different letters, so the first letter of the simple name tells the platform,
and the rest is the type's own name. -/
theorem onPlatform_inj {t t' : TypeName} {p p' : Platform}
    (h : t.onPlatform p = t'.onPlatform p') : t = t' ∧ p = p' := by
  obtain ⟨package, simple⟩ := t
  obtain ⟨package', simple'⟩ := t'
  simp only [onPlatform, tagged, mk.injEq] at h
  obtain ⟨rfl, h⟩ := h
  rw [← String.toList_inj, String.toList_append, String.toList_append] at h
  cases p <;> cases p' <;> simp only [Platform.tag] at h
  · exact ⟨by rw [String.toList_inj.1 (List.append_cancel_left h)], rfl⟩
  · simp at h
  · simp at h
  · exact ⟨by rw [String.toList_inj.1 (List.append_cancel_left h)], rfl⟩

/-- The implementation has a longer name than the type. -/
theorem onPlatform_ne (t : TypeName) (p : Platform) : t.onPlatform p ≠ t := by
  intro h
  have hlength : (t.onPlatform p).simple.length = t.simple.length :=
    congrArg (fun u : TypeName => u.simple.length) h
  rw [onPlatform, tagged, String.length_append] at hlength
  have htag : 0 < p.tag.length := by cases p <;> decide
  omega

/-- The tag goes in front of the simple name, so the package stays, the simple name is not empty,
and it holds no full stop. -/
theorem WellFormed.onPlatform {t : TypeName} (h : t.WellFormed) (p : Platform) :
    (t.onPlatform p).WellFormed := by
  obtain ⟨hpackage, hsimple, hstop⟩ := h
  refine ⟨hpackage, ?_, ?_⟩
  · cases p <;> simp [TypeName.onPlatform, tagged, Platform.tag]
  · cases p <;> simpa [TypeName.onPlatform, tagged, Platform.tag] using hstop

/-- The implementation of a type whose name was read has a name that can be read. -/
theorem IsRead.onPlatform {t : TypeName} (h : t.IsRead) (p : Platform) :
    (t.onPlatform p).IsRead :=
  isRead_iff.2 (WellFormed.onPlatform h.parts p)

/-- **Reading undoes writing, and writing undoes reading.** A text is read exactly if something
stands before and something after its last full stop, and then the name is written like the text;
every name with a package and a simple name without full stop is read from its written form. The
implementations of types with such names have such names, each of them for one type and one
platform. -/
theorem read_inverts_qualified :
    (∀ s, (∃ t, read s = .ok t) ↔ Divisible s) ∧
      (∀ (s : String) (t : TypeName), read s = .ok t → t.WellFormed ∧ t.qualified = s) ∧
      (∀ t : TypeName, t.WellFormed → read t.qualified = .ok t) ∧
      (∀ t v : TypeName, t.IsRead → v.IsRead → t.qualified = v.qualified → t = v) ∧
      (∀ (t : TypeName) (p : Platform), t.IsRead → (t.onPlatform p).WellFormed) ∧
      ∀ (t v : TypeName) (p p' : Platform), t.onPlatform p = v.onPlatform p' → p = p' ∧ t = v := by
  refine ⟨fun s => exists_read_iff, fun s t h => read_eq_ok_iff.1 h, ?_, ?_, ?_, ?_⟩
  · intro t h
    exact read_eq_ok_iff.2 ⟨h, rfl⟩
  · intro t v ht hv h
    exact ht.eq_of_qualified hv h
  · intro t p h
    exact WellFormed.onPlatform h.parts p
  · intro t v p p' h
    exact (onPlatform_inj h).symm

/-- A name that looks like one of an implementation, in a package with an empty segment: it is read,
and so is the name of its own implementation. -/
theorem iosPay_read_back :
    read "com..shop.IOSPay" = .ok ⟨"com..shop", "IOSPay"⟩ ∧
      qualified ⟨"com..shop", "IOSPay"⟩ = "com..shop.IOSPay" ∧
      (onPlatform ⟨"com..shop", "IOSPay"⟩ .ios).WellFormed ∧
      read "com..shop.IOSIOSPay" = .ok ⟨"com..shop", "IOSIOSPay"⟩ := by
  obtain ⟨-, hread, hwritten, -, hplatform, -⟩ := read_inverts_qualified
  have hname : read "com..shop.IOSPay" = .ok ⟨"com..shop", "IOSPay"⟩ := by decide +kernel
  have himplementation := hplatform ⟨"com..shop", "IOSPay"⟩ .ios ⟨_, hname⟩
  exact ⟨hname, (hread _ _ hname).2, himplementation, hwritten _ himplementation⟩

end TypeName

end PlatformWiring
