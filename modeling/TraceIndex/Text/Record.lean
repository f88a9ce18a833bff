namespace TraceIndex.Text

def field (f : String × String) : String := f.1 ++ ": " ++ f.2

def record (name : String) (fields : List (String × String)) : String :=
  name ++ " \x7b " ++ ", ".intercalate (fields.map field) ++ " \x7d"

def partOfRecord (name : String) (fields : List (String × String)) : String :=
  name ++ " \x7b " ++ ", ".intercalate (fields.map field ++ [".."]) ++ " \x7d"

end TraceIndex.Text
