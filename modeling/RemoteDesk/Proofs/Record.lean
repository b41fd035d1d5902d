import RemoteDesk.Record

/-!
Records whose values fit. Each value that is present is checked by itself, and what fits as a
field's value is what the field is read as.
-/
namespace RemoteDesk

variable {ν α : Type}

theorem checkFields_cons {fields : List (Field ν Unit)} {f : Field ν Unit} {name : String} {v : ν}
    (hfind : fields.find? (fun f => f.name == name) = some f) (hread : f.read v = .ok ())
    (members : List (String × ν)) :
    checkFields fields ((name, v) :: members) = checkFields fields members := by
  simp only [checkFields, hfind, hread]
  rfl

theorem Field.test_read {f : Field ν α} {v : ν} {a : α} (h : f.read v = .ok a) :
    f.test.read v = .ok () := by
  simp only [test, h]
  rfl

end RemoteDesk
