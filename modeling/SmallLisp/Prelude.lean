namespace SmallLisp.Prelude

def source : String := "
;; Boolean logic

(define not
    (lambda (b)
        (if b #f #t)))

(define or
    (lambda (a b)
        (if a #t (if b #t #f))))

(define and
    (lambda (a b)
        (if a (if b #t #f) #f)))

(define xor
    (lambda (a b)
        (and (or a b) (not (and a b)))))

;; Comparisons

(define >=
    (lambda (a b)
        (or (> a b) (= a b))))

(define <=
    (lambda (a b)
        (not (> a b))))

(define /=
    (lambda (a b)
        (not (= a b))))

;; Lists

(define sum
    (lambda (lst)
        (if (empty lst)
            0
            (+ (head lst) (sum (tail lst))))))

(define length
    (lambda (lst)
        (if (empty lst)
            0
            (+ 1 (length (tail lst))))))

(define append
    (lambda (xs ys)
        (if (empty xs)
            ys
            (cons (head xs) (append (tail xs) ys)))))

(define filter
    (lambda (pred lst)
        (if (empty lst)
            '()
            (if (pred (head lst))
                (cons (head lst) (filter pred (tail lst)))
                (filter pred (tail lst))))))

(define map
    (lambda (f lst)
        (if (empty lst)
            '()
            (cons (f (head lst)) (map f (tail lst))))))

(define reverse
    (lambda (lst)
        (if (empty lst)
            '()
            (append (reverse (tail lst)) (cons (head lst) '())))))

;; Inclusive at both ends: (range 1 3) is (1 2 3)
(define range
    (lambda (start end)
        (if (> start end)
            '()
            (cons start (range (+ start 1) end)))))

(define sort
    (lambda (lst)
        (if (empty lst)
            '()
            (append
                (sort (filter (lambda (x) (< x (head lst))) (tail lst)))
                (cons (head lst)
                      (sort (filter (lambda (x) (>= x (head lst))) (tail lst))))))))
"

end SmallLisp.Prelude
